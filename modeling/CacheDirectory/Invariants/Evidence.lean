/-
  File:      CacheDirectory/Invariants/Evidence.lean
  Subject:   WHO MAY VOUCH FOR A COPY.

  CURRENT, REACHABLE, VERIFIED and HEALTHY are the values by which the directory vouches for the
  bytes behind a record. Every other operation that writes evidence lowers it.

  * `Voucher` -- the four values, each with the update that gives it;
  * `vouched_edited` -- an edit that gives a record one of them is that update, admitted;
  * `unvouched_install` -- recovery leaves nothing CURRENT and nothing REACHABLE;
  * `vouched_only_by_owner` -- both together.
-/
import CacheDirectory.Invariants.Edits
import CacheDirectory.Invariants.RecordIds
import CacheDirectory.Recovery.Fidelity

namespace CacheDirectory

open Library Directory

/-! ## 1. The four values -/

/-- The best value of each kind of evidence. -/
inductive Voucher where
  | current
  | reachable
  | verified
  | healthy

/-- The record holds the value. -/
def Voucher.Holds (v : Voucher) (r : DirectoryRecord) : Prop :=
  match v with
  | .current => r.freshness = .current
  | .reachable => r.reachability = .reachable
  | .verified => r.integrity = .verified
  | .healthy => r.health = .healthy

/-- The update that writes the value. -/
def Voucher.update (v : Voucher) (id : DirectoryRecordId) (env : AuthorityEnvelope)
    (now : TimestampNs) : Operation :=
  match v with
  | .current => .updateFreshness id .current env now
  | .reachable => .updateReachability id .reachable env now
  | .verified => .updateIntegrity id .verified env now
  | .healthy => .updateHealth id .healthy env now

/-! ## 2. One edit -/

section Edit

variable {v : Voucher} {r : DirectoryRecord}

/-- Loss lowers freshness and reachability, and leaves integrity and health. -/
theorem holds_loseRecord (h : v.Holds (loseRecord r)) : v.Holds r := by
  unfold loseRecord at h
  cases v with
  | current => split at h <;> cases h
  | reachable => split at h <;> cases h
  | verified => split at h <;> exact h
  | healthy => split at h <;> exact h

/-- An assignment of evidence that gives the value is the one of its update. -/
theorem vouched_write {op : Operation} {id : DirectoryRecordId} {env : AuthorityEnvelope}
    {write : DirectoryRecord → DirectoryRecord} (hev : op.evidence = some (id, env, write))
    (hno : ¬ v.Holds r) (hyes : v.Holds (write r)) : ∃ now, op = v.update id env now := by
  cases op with
  | updateHealth id h env now =>
      cases hev
      cases v with
      | healthy =>
          cases (show h = .healthy from hyes)
          exact ⟨now, rfl⟩
      | _ => exact absurd hyes hno
  | updateFreshness id f env now =>
      cases hev
      cases v with
      | current =>
          cases (show f = .current from hyes)
          exact ⟨now, rfl⟩
      | _ => exact absurd hyes hno
  | updateReachability id reach env now =>
      cases hev
      cases v with
      | reachable =>
          cases (show reach = .reachable from hyes)
          exact ⟨now, rfl⟩
      | _ => exact absurd hyes hno
  | updateIntegrity id integ env now =>
      cases hev
      cases v with
      | verified =>
          cases (show integ = .verified from hyes)
          exact ⟨now, rfl⟩
      | _ => exact absurd hyes hno
  | _ => cases hev

/-- The stamp of an update is no evidence. -/
theorem holds_restamped {s : LifecycleState} {env : AuthorityEnvelope} {now : TimestampNs} :
    v.Holds (restamped s env now r) ↔ v.Holds r := by
  cases v <;> exact Iff.rfl

/-- An invalidation marks a copy UNREACHABLE or leaves its evidence alone. -/
theorem holds_invalidated {now : TimestampNs} {reach : Reachability}
    (hreach : reach = r.reachability ∨ reach = .unreachable)
    (h : v.Holds { r with
      current := false
      lifecycle := .invalidated
      updatedNs := now
      reachability := reach }) : v.Holds r := by
  cases v with
  | reachable =>
      have hnow : reach = .reachable := h
      rcases hreach with hsame | hlost
      · rw [hsame] at hnow
        exact hnow
      · rw [hlost] at hnow
        cases hnow
  | _ => exact h

/-- **An edit that gives a record the value is the admitted update that writes it.** -/
theorem vouched_edited {d : Directory} {op : Operation} {r' : DirectoryRecord}
    (h : Edited d op r r') (hno : ¬ v.Holds r) (hyes : v.Holds r') :
    ∃ id env now i, op = v.update id env now ∧ Admitted id env d i ∧ r = d.records.get i := by
  cases h with
  | untouched op r => exact absurd hyes hno
  | lost live boot => exact absurd (holds_loseRecord hyes) hno
  | displaced admitted hit => exact absurd (by cases v <;> exact hyes) hno
  | late hev hi _ =>
      obtain ⟨now, hop⟩ := vouched_write hev hno hyes
      exact ⟨_, _, now, _, hop, hi, rfl⟩
  | evidence now hev hi _ =>
      obtain ⟨now, hop⟩ := vouched_write hev hno (holds_restamped.mp hyes)
      exact ⟨_, _, now, _, hop, hi, rfl⟩
  | relabelled hi _ => exact absurd (holds_restamped.mp hyes) hno
  | invalidated now reach _ _ hreach => exact absurd (holds_invalidated hreach hyes) hno
  | buried _ _ _ => exact absurd (by cases v <;> exact hyes) hno

end Edit

/-! ## 3. Recovery -/

theorem recoveredFreshness_ne_current (m : MemoryDomain) : recoveredFreshness m ≠ .current := by
  unfold recoveredFreshness
  split
  · decide
  · decide

/-- Nothing recovery installs is CURRENT or REACHABLE. -/
theorem unvouched_install (s : Snapshot) (d : Directory) :
    (∀ r ∈ (d.install s).records, r.freshness ≠ .current ∧ r.reachability ≠ .reachable) ∧
      ∀ l ∈ (d.install s).locations.values,
        l.freshness ≠ .current ∧ l.reachability ≠ .reachable := by
  constructor
  · intro r hr
    obtain ⟨x, _, rfl⟩ := List.mem_map.mp hr
    exact ⟨recoveredFreshness_ne_current x.domain, nofun⟩
  · intro l hl
    obtain ⟨x, _, rfl⟩ := KeyedMap.mem_adjust.mp
      (show l ∈ ((KeyedMap.ofList LocationDescriptor.locationId s.locations).adjust
        (fun _ => true) recoverLocation fun _ => rfl).values from hl)
    exact ⟨recoveredFreshness_ne_current x.domain, nofun⟩

/-! ## 4. The law -/

/-- **Evidence improves only by its owner's update.** In every state, for every call that is no
    recovery and every record on file: a value it did not hold before was written by the update
    of that value, for this record, under the epoch, the boot and the fence of its owner. What a
    recovery leaves is neither CURRENT nor REACHABLE. -/
theorem vouched_only_by_owner (F : Type) [ScoreArith F] (d : Directory) :
    (∀ (op : Operation) (i : Nat) (r r' : DirectoryRecord) (v : Voucher),
        op.isRecovery = false → d.records[i]? = some r → (op.step F d).records[i]? = some r' →
        ¬ v.Holds r → v.Holds r' →
        ∃ env now, op = v.update r.recordId env now ∧ env.epoch = d.epoch ∧
          env.boot = r.authority.boot ∧ ¬ env.fence < r.authority.fence) ∧
      ∀ (buf : Bytes) (ack : AckResult) (d' : Directory),
        d.recoverFromBuffer buf = some (.ok ack, d') →
        (∀ r ∈ d'.records, r.freshness ≠ .current ∧ r.reachability ≠ .reachable) ∧
          ∀ l ∈ d'.locations.values, l.freshness ≠ .current ∧ l.reachability ≠ .reachable := by
  constructor
  · intro op i r r' v hop hr hr' hno hyes
    obtain ⟨id, env, now, j, rfl, hj, rfl⟩ := vouched_edited (edited_at F hop hr hr') hno hyes
    obtain ⟨hepoch, hboot, hfence⟩ := authorised_iff.mp hj.authorised
    exact ⟨env, now, by rw [recordId_found hj.found], hepoch, hboot.symm, hfence⟩
  · intro buf ack d' hrec
    rcases recoverFromBuffer_cases buf d with ⟨f, hfail⟩ | ⟨s, ack', _, _, hdone⟩
    · rw [hfail] at hrec
      cases hrec
    · rw [hdone] at hrec
      cases hrec
      exact unvouched_install s d

/-- The owner of the one copy reports its bytes CURRENT. -/
def freshUpdate : Operation := .updateFreshness ⟨1⟩ .current { epoch := ⟨1⟩, boot := ⟨1⟩ } 2

theorem vouched_afterRegistration :
    (∃ r ∈ afterRegistration.records, ∃ env now,
        freshUpdate = Voucher.current.update r.recordId env now ∧
          env.epoch = afterRegistration.epoch ∧ env.boot = r.authority.boot ∧
          ¬ env.fence < r.authority.fence) ∧
      ∃ ack t', Directory.recoverFromBuffer (afterRegistration.saveToBuffer .stored).2 {} =
          some (.ok ack, t') ∧
        (∀ r ∈ t'.records, r.freshness ≠ .current ∧ r.reachability ≠ .reachable) ∧
          ∀ l ∈ t'.locations.values, l.freshness ≠ .current ∧ l.reachability ≠ .reachable := by
  constructor
  · obtain ⟨r, hr⟩ := Option.isSome_iff_exists.mp
      (show afterRegistration.records[0]?.isSome = true by decide +kernel)
    obtain ⟨r', hr'⟩ := Option.isSome_iff_exists.mp
      (show (freshUpdate.step Float afterRegistration).records[0]?.isSome = true by
        decide +kernel)
    have hno : ∀ r ∈ afterRegistration.records, r.freshness ≠ .current := by decide +kernel
    have hyes : ∀ r ∈ (freshUpdate.step Float afterRegistration).records,
        r.freshness = .current := by decide +kernel
    exact ⟨r, List.mem_of_getElem? hr, (vouched_only_by_owner Float afterRegistration).1
      freshUpdate 0 r r' .current rfl hr hr' (hno r (List.mem_of_getElem? hr))
      (hyes r' (List.mem_of_getElem? hr'))⟩
  · obtain ⟨ack, hrec⟩ := recover_saved (o := .stored) restartable_afterRegistration {}
    exact ⟨ack, _, hrec, (vouched_only_by_owner Float {}).2 _ ack _ hrec⟩

end CacheDirectory
