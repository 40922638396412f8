/-
  File:      CacheDirectory/Recovery/Epochs.lean
  Subject:   EPOCHS ALONG RUNS WITH RECOVERIES.

  Recovery sets the epoch to the one of the snapshot plus one, in 64 bits, whatever the epoch of
  the coordinator that recovers. An incarnation of a coordinator lasts from one recovery that is
  accepted to the next; nothing else touches the epoch.

  * `Operation.installs` -- the snapshot a recovery installs, read off its bytes;
  * `epoch_installed` -- the new epoch is above the old one and the snapshot's exactly when the
    snapshot is not older than the coordinator and the counter is not at its end;
  * `epochs_advance_iff` -- along runs: every incarnation has an epoch above all earlier ones
    exactly when every recovery that is accepted meets that condition.
-/
import CacheDirectory.Invariants.Sessions
import CacheDirectory.Recovery.Fidelity

namespace CacheDirectory

open Library Directory

/-! ## 1. Accepted recoveries -/

/-- The snapshot recovery takes from a buffer; it does not depend on the directory. -/
def acceptedSnapshot (buf : Bytes) : Option Snapshot :=
  match parseSnapshot buf with
  | .ok s => if s.problem = none then some s else none
  | .error _ => none

/-- The snapshot an operation installs. -/
def Operation.installs : Operation → Option Snapshot
  | .recoverFromBuffer buf => acceptedSnapshot buf
  | _ => none

section Installs

variable {F : Type} [ScoreArith F] {op : Operation} {s : Snapshot}

theorem acceptedSnapshot_eq_some {buf : Bytes} :
    acceptedSnapshot buf = some s ↔ parseSnapshot buf = .ok s ∧ s.problem = none := by
  unfold acceptedSnapshot
  cases hp : parseSnapshot buf with
  | error e => simp
  | ok s' =>
      simp only [Except.ok.injEq]
      by_cases hs : s'.problem = none
      · rw [if_pos hs]
        constructor
        · intro h
          cases h
          exact ⟨rfl, hs⟩
        · rintro ⟨rfl, _⟩
          rfl
      · rw [if_neg hs]
        refine iff_of_false (by simp) ?_
        rintro ⟨rfl, h⟩
        exact hs h

/-- **What an operation that installs a snapshot leaves behind.** -/
theorem step_installs (h : op.installs = some s) (d : Directory) :
    op.Accepted F d ∧ op.step F d = d.install s := by
  cases op with
  | recoverFromBuffer buf =>
      obtain ⟨hp, hs⟩ := acceptedSnapshot_eq_some.mp h
      rcases recoverFromBuffer_cases buf d with ⟨f, hrec⟩ | ⟨s', ack, hp', _, hrec⟩
      · unfold Directory.recoverFromBuffer at hrec
        rw [hp] at hrec
        simp only [hs] at hrec
        cases hrec
      · rw [hp] at hp'
        cases hp'
        refine ⟨?_, step_of_recovered F hrec⟩
        show (Operation.run F (.recoverFromBuffer buf) d).1 = none
        simp only [Operation.run, hrec]
        rfl
  | _ => cases h

/-- A recovery that installs nothing does nothing. -/
theorem step_of_not_accepted {buf : Bytes} (h : acceptedSnapshot buf = none) (d : Directory) :
    (Operation.recoverFromBuffer buf).step F d = d := by
  rcases recoverFromBuffer_cases buf d with ⟨f, hrec⟩ | ⟨s, ack, hp, hs, hrec⟩
  · exact step_of_recovered F hrec
  · rw [acceptedSnapshot_eq_some.mpr ⟨hp, hs⟩] at h
    cases h

theorem step_of_accepted {buf : Bytes} (h : acceptedSnapshot buf = some s) (d : Directory) :
    (Operation.recoverFromBuffer buf).step F d = d.install s :=
  (step_installs (show (Operation.recoverFromBuffer buf).installs = some s from h) d).2

/-- A recovery is accepted exactly when there is a snapshot in the buffer to install. -/
theorem accepted_recoverFromBuffer {buf : Bytes} {d : Directory} :
    (Operation.recoverFromBuffer buf).Accepted F d ↔ ∃ s, acceptedSnapshot buf = some s := by
  constructor
  · intro h
    rcases recoverFromBuffer_cases buf d with ⟨f, hrec⟩ | ⟨s, ack, hp, hs, _⟩
    · unfold Operation.Accepted at h
      simp only [Operation.run, hrec] at h
      cases h
    · exact ⟨s, acceptedSnapshot_eq_some.mpr ⟨hp, hs⟩⟩
  · intro h
    obtain ⟨s, hs⟩ := h
    exact (step_installs (show (Operation.recoverFromBuffer buf).installs = some s from hs) d).1

/-- **The rule for one recovery**: what holds of the directory holds behind it exactly when what
    it takes holds of the snapshot, if that is accepted. -/
theorem recovery_iff {P : Directory → Prop} {Q : Snapshot → Prop} {buf : Bytes} {d : Directory}
    (hd : P d) (h : ∀ s, acceptedSnapshot buf = some s → (Q s ↔ P (d.install s))) :
    (∀ s, acceptedSnapshot buf = some s → Q s) ↔
      P ((Operation.recoverFromBuffer buf).step F d) := by
  cases hs : acceptedSnapshot buf with
  | none =>
      rw [step_of_not_accepted hs]
      exact iff_of_true nofun hd
  | some s =>
      rw [step_of_accepted hs, ← h s hs]
      constructor
      · intro hall
        exact hall s rfl
      · rintro hQ _ ⟨⟩
        exact hQ

/-- Nothing else gives the directory another epoch. -/
theorem epoch_of_not_installs (h : op.installs = none) (d : Directory) :
    (op.step F d).epoch = d.epoch := by
  cases op with
  | recoverFromBuffer buf => rw [step_of_not_accepted h]
  | _ => exact epoch_step F rfl d

/-- The snapshot of a directory that can be restarted from is installed. -/
theorem installs_saved {d : Directory} {o : MapOrders} (h : d.Restartable) :
    (Operation.recoverFromBuffer (d.saveToBuffer o).2).installs = some (d.snapshotOf o) := by
  have hsizes := sizesFit_of_limits h.counts h.strings
  exact acceptedSnapshot_eq_some.mpr
    ⟨(parseSnapshot_saved hsizes).1 ⟨h.counts, h.strings⟩,
      problem_eq_none.mpr (sound_snapshotOf.mpr h.sound)⟩

end Installs

/-! ## 2. The new epoch -/

/-- The snapshot is not older than the coordinator, and the counter is not at its end. -/
def Snapshot.Ahead (s : Snapshot) (d : Directory) : Prop :=
  d.epoch.value ≤ s.epoch ∧ s.epoch.toNat + 1 < 2 ^ 64

/-- **The epoch behind a recovery is above the coordinator's and the snapshot's exactly when the
    snapshot is ahead.** -/
theorem epoch_installed {s : Snapshot} {d : Directory} :
    s.Ahead d ↔ d.epoch.value < (d.install s).epoch.value ∧
      s.epoch < (d.install s).epoch.value := by
  have hnew : (d.install s).epoch.value.toNat = (s.epoch.toNat + 1) % 2 ^ 64 := UInt64.toNat_add _ _
  have hbound := s.epoch.toNat_lt
  unfold Snapshot.Ahead
  rw [UInt64.le_iff_toNat_le, UInt64.lt_iff_toNat_lt, UInt64.lt_iff_toNat_lt, hnew]
  omega

/-! ## 3. Runs -/

/-- A snapshot the operation installs is ahead of the coordinator. -/
def Operation.RecoversAhead (op : Operation) (d : Directory) : Prop :=
  ∀ s, op.installs = some s → s.Ahead d

/-- No epoch comes back along the run: behind an accepted recovery the epoch is above the one of
    the snapshot, and from there on above every epoch the directory had before. -/
def EpochsAdvance (F : Type) [ScoreArith F] (d : Directory) (ops : List Operation) : Prop :=
  ∀ pre op post s, ops = pre ++ op :: post → op.installs = some s →
    s.epoch < (op.step F (after (Operation.step F) d pre)).epoch.value ∧
      ∀ t ∈ visited (Operation.step F) d pre,
        ∀ u ∈ visited (Operation.step F) (op.step F (after (Operation.step F) d pre)) post,
          t.epoch.value < u.epoch.value

/-- **No epoch comes back exactly in the runs whose accepted recoveries are all of snapshots that
    are ahead.** -/
theorem epochs_advance_iff (F : Type) [ScoreArith F] (d : Directory) (ops : List Operation) :
    Follows (Operation.step F) Operation.RecoversAhead d ops ↔ EpochsAdvance F d ops := by
  have hgrows (op : Operation) (t : Directory) (h : op.RecoversAhead t) :
      op.installs.isSome = true → t.epoch.value.toNat < (op.step F t).epoch.value.toNat := by
    intro hjump
    obtain ⟨s, hs⟩ := Option.isSome_iff_exists.mp hjump
    rw [(step_installs hs t).2]
    exact UInt64.lt_iff_toNat_lt.mp (epoch_installed.mp (h s hs)).1
  have hquiet (op : Operation) (t : Directory) (h : ¬ op.installs.isSome = true) :
      (op.step F t).epoch.value.toNat = t.epoch.value.toNat := by
    rw [epoch_of_not_installs (Option.not_isSome_iff_eq_none.mp h)]
  constructor
  · intro h pre op post s hsplit hs
    have hahead := (follows_iff_splits ops d).mp h pre op post hsplit s hs
    refine ⟨?_, fun t ht u hu => UInt64.lt_iff_toNat_lt.mpr ?_⟩
    · rw [(step_installs hs _).2]
      exact (epoch_installed.mp hahead).2
    · exact (jumps_separate hquiet ops d).mp (h.imp hgrows ops d) pre op post hsplit
        (by rw [hs]; rfl) t ht u hu
  · intro h
    rw [follows_iff_splits]
    intro pre op post hsplit s hs
    obtain ⟨hsnapshot, hseen⟩ := h pre op post s hsplit hs
    have hold := hseen _ (after_mem_visited _ pre d) _ (start_mem_visited _ _ post)
    rw [(step_installs hs _).2] at hsnapshot hold
    exact epoch_installed.mpr ⟨hold, hsnapshot⟩

/-! ## 4. An old snapshot -/

/-- The snapshot of a fresh coordinator, and its recovery. -/
def firstSnapshot : Bytes := (Directory.saveToBuffer .stored {}).2

def recoverFirst : Operation := .recoverFromBuffer firstSnapshot

/-- The second incarnation. -/
def recoveredOnce : Directory := after (Operation.step Float) {} [recoverFirst]

/-- **The counterexample**: recovering the first snapshot once more, the second incarnation is
    followed by one under the same epoch, and an envelope of that epoch stays current. -/
theorem old_snapshot_repeats_epoch :
    Reached Float [recoverFirst] recoveredOnce ∧ recoveredOnce.epoch = ⟨2⟩ ∧
      recoverFirst.Accepted Float recoveredOnce ∧
      (recoverFirst.step Float recoveredOnce).epoch = ⟨2⟩ := by
  have hinstalls : recoverFirst.installs = some (Directory.snapshotOf .stored {}) :=
    installs_saved (by decide +kernel)
  have hepoch (t : Directory) : (recoverFirst.step Float t).epoch = ⟨2⟩ := by
    rw [(step_installs hinstalls t).2]
    rfl
  have honce : recoveredOnce = recoverFirst.step Float {} := by
    unfold recoveredOnce
    rw [after, after]
  refine ⟨after_mem_visited _ _ _, ?_, (step_installs hinstalls _).1, hepoch _⟩
  rw [honce]
  exact hepoch {}

end CacheDirectory
