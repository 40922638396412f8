/-
  File:      CacheDirectory/Invariants/Replicas.lean
  Subject:   WHETHER A DELAYED REGISTRATION MOVES A REPLICA BACK.

  `register_cache` and `register_location` compare the fence and the generation they come with with
  the stored ones. `register_replica` asks for the owner and for nothing else, so the last message
  that arrives wins.

  * `ReplicasAdvance` -- every replica on file stays there, fence and generation no smaller;
  * `raisesReplica_iff` -- one call makes it so exactly when it is no admitted registration below
    the stored fence or generation;
  * `fencesReplica_iff` -- exactly then stale registrations by the owner are refused;
  * `stale_replicas_fenced_iff` -- along runs.
-/
import CacheDirectory.Invariants.Descriptors

namespace CacheDirectory

open Library Directory

/-! ## 1. One call -/

/-- What `register_replica` asks before it files the replica. -/
structure AdmitsReplica (d : Directory) (replica : ReplicaDescriptor) : Prop where
  named : replica.replicaId.isNull = false
  located : d.locations.contains replica.location = true
  epoch : replica.authority.epoch = d.epoch
  live : d.workerLive replica.authority.boot = true
  owner : ∀ r, d.replicas.find replica.replicaId = some r →
    r.authority.boot = replica.authority.boot

/-- The replica comes with a fence or a generation below the stored one. -/
def StaleReplica (replica stored : ReplicaDescriptor) : Prop :=
  replica.authority.fence < stored.authority.fence ∨
    replica.generation.value < stored.generation.value

/-- The call is no registration of a replica on file that is admitted and stale. -/
def Operation.RaisesReplica (op : Operation) (d : Directory) : Prop :=
  match op with
  | .registerReplica replica =>
      AdmitsReplica d replica →
        ∀ r, d.replicas.find replica.replicaId = some r → ¬ StaleReplica replica r
  | _ => True

/-- If the call is a stale registration by the boot that owns the replica, it fails and changes
    nothing. -/
def Operation.FencesReplica (F : Type) [ScoreArith F] (op : Operation) (d : Directory) : Prop :=
  match op with
  | .registerReplica replica =>
      ∀ r, d.replicas.find replica.replicaId = some r →
        r.authority.boot = replica.authority.boot → StaleReplica replica r →
        (Operation.registerReplica replica).Refused F d
  | _ => True

/-- Every replica on file stays there, with a fence and a generation no smaller. -/
def ReplicasAdvance (d d' : Directory) : Prop :=
  ∀ id r, d.replicas.find id = some r →
    ∃ r', d'.replicas.find id = some r' ∧ r.authority.fence ≤ r'.authority.fence ∧
      r.generation.value ≤ r'.generation.value

section Replicas

variable {F : Type} [ScoreArith F] {d : Directory} {replica : ReplicaDescriptor}

theorem ReplicasAdvance.refl (d : Directory) : ReplicasAdvance d d :=
  fun _ r hr => ⟨r, hr, UInt64.le_refl _, UInt64.le_refl _⟩

theorem ReplicasAdvance.trans {d d' d'' : Directory} (h : ReplicasAdvance d d')
    (h' : ReplicasAdvance d' d'') : ReplicasAdvance d d'' := by
  intro id r hr
  obtain ⟨r', hr', hfence, hgen⟩ := h id r hr
  obtain ⟨r'', hr'', hfence', hgen'⟩ := h' id r' hr'
  exact ⟨r'', hr'', UInt64.le_trans hfence hfence', UInt64.le_trans hgen hgen'⟩

theorem not_staleReplica {stored : ReplicaDescriptor} :
    ¬ StaleReplica replica stored ↔
      stored.authority.fence ≤ replica.authority.fence ∧
        stored.generation.value ≤ replica.generation.value := by
  unfold StaleReplica
  rw [not_or, UInt64.not_lt, UInt64.not_lt]

theorem admitsReplica_iff : (Operation.registerReplica replica).Accepted F d ↔
    AdmitsReplica d replica := by
  rw [accepted_registerReplica]
  constructor
  · rintro ⟨hnamed, hlocated, hepoch, hlive, howner⟩
    exact ⟨hnamed, hlocated, hepoch, hlive, howner⟩
  · intro h
    exact ⟨h.named, h.located, h.epoch, h.live, h.owner⟩

/-- **One call lets every replica advance exactly when it is no admitted stale registration.** -/
theorem raisesReplica_iff (op : Operation) (d : Directory) (hop : op.isRecovery = false) :
    op.RaisesReplica d ↔ ReplicasAdvance d (op.step F d) := by
  have hother (h : op.onReplicas = false) : ReplicasAdvance d (op.step F d) := by
    intro id r hr
    rw [replicas_step F h]
    exact ⟨r, hr, UInt64.le_refl _, UInt64.le_refl _⟩
  cases op with
  | registerReplica replica =>
      constructor
      · intro h id r hr
        rw [find_replica_registered]
        split
        case isTrue hfiled =>
            obtain ⟨haccepted, rfl⟩ := hfiled
            have hadmits : AdmitsReplica d replica := admitsReplica_iff.mp haccepted
            exact ⟨replica, rfl, not_staleReplica.mp (h hadmits r hr)⟩
        case isFalse => exact ⟨r, hr, UInt64.le_refl _, UInt64.le_refl _⟩
      · intro h hadmits r hr
        obtain ⟨r', hr', hnew⟩ := h replica.replicaId r hr
        rw [find_replica_registered, if_pos ⟨admitsReplica_iff.mpr hadmits, rfl⟩] at hr'
        cases hr'
        exact not_staleReplica.mpr hnew
  | recoverFromBuffer buf => cases hop
  | _ => exact iff_of_true trivial (hother rfl)

/-- **Exactly then a stale registration by the owner is refused.** -/
theorem fencesReplica_iff (op : Operation) (d : Directory) :
    op.RaisesReplica d ↔ op.FencesReplica F d := by
  cases op with
  | registerReplica replica =>
      constructor
      · intro h r hr hboot hstale
        have hrejected : ¬ (Operation.registerReplica replica).Accepted F d := by
          rw [admitsReplica_iff]
          exact fun hadmits => h hadmits r hr hstale
        exact ⟨hrejected, rejected_step rfl (by simp) hrejected⟩
      · intro h hadmits r hr hstale
        exact (h r hr (hadmits.owner r hr) hstale).1 (admitsReplica_iff.mpr hadmits)
  | _ => exact Iff.rfl

end Replicas

/-! ## 2. Runs -/

/-- **Along a run without recovery every stale registration by the owner of a replica is refused,
    and fence and generation of no replica ever decrease, exactly when no registration of the run
    is admitted and stale.** -/
theorem stale_replicas_fenced_iff (F : Type) [ScoreArith F] (d : Directory) (ops : List Operation)
    (hops : ∀ op ∈ ops, op.isRecovery = false) :
    Follows (Operation.step F) Operation.RaisesReplica d ops ↔
      Follows (Operation.step F) (Operation.FencesReplica F) d ops ∧
      ∀ pre mid post, ops = pre ++ mid ++ post →
        ReplicasAdvance (after (Operation.step F) d pre)
          (after (Operation.step F) d (pre ++ mid)) := by
  have hgiven : Follows (Operation.step F) (fun op _ => op.isRecovery = false) d ops :=
    (follows_const _ ops d).mpr hops
  have hfences : Follows (Operation.step F) Operation.RaisesReplica d ops ↔
      Follows (Operation.step F) (Operation.FencesReplica F) d ops :=
    follows_congr (fun _ _ (_ : True) _ => trivial) (fun op s _ _ => fencesReplica_iff op s) ops d
      trivial hgiven
  have hadvance : Follows (Operation.step F) Operation.RaisesReplica d ops ↔
      Follows (Operation.step F) (fun op s => ReplicasAdvance s (op.step F s)) d ops :=
    follows_congr (fun _ _ (_ : True) _ => trivial) (fun op s _ h => raisesReplica_iff op s h) ops
      d trivial hgiven
  rw [← follows_iff_pairs ReplicasAdvance.refl fun _ _ _ => ReplicasAdvance.trans, ← hfences,
    ← hadvance, and_self]

/-- Replica 1 moves to location 2 under fence 2 and generation 2. -/
def movedReplica : ReplicaDescriptor :=
  { attachedReplica ⟨1⟩ ⟨1⟩ ⟨2⟩ ⟨1⟩ with
    generation := ⟨2⟩, authority := { epoch := ⟨1⟩, boot := ⟨1⟩, fence := 2 } }

/-- The first registration of replica 1, at location 1. -/
def delayedReplica : ReplicaDescriptor := attachedReplica ⟨1⟩ ⟨1⟩ ⟨1⟩ ⟨1⟩

def movedOnce : List Operation :=
  oneCopy ++ [.registerLocation (attachedLocation ⟨1⟩ ⟨2⟩), .registerReplica movedReplica]

def moved : Directory := after (Operation.step Float) {} movedOnce

/-- **The counterexample**: the delayed registration is accepted and moves the replica back. -/
theorem delayed_replica_accepted :
    Reached Float movedOnce moved ∧ StaleReplica delayedReplica movedReplica ∧
      (Operation.registerReplica delayedReplica).Accepted Float moved ∧
      (visited (Operation.step Float) moved [.registerReplica delayedReplica]).map
          (fun d => d.replicas.values.map fun r =>
            (r.location, r.generation, r.authority.fence)) =
        [[(⟨2⟩, ⟨2⟩, 2)], [(⟨1⟩, ⟨0⟩, 0)]] := by
  refine ⟨after_mem_visited _ _ _, .inl (by decide), ?_, ?_⟩
  all_goals decide +kernel

/-- Moving on is no stale registration, moving back is. -/
theorem stale_replicas_fenced_moved :
    (Follows (Operation.step Float) (Operation.FencesReplica Float) {} movedOnce ∧
      ∀ pre mid post, movedOnce = pre ++ mid ++ post →
        ReplicasAdvance (after (Operation.step Float) {} pre)
          (after (Operation.step Float) {} (pre ++ mid))) ∧
      ¬ (Follows (Operation.step Float) (Operation.FencesReplica Float) moved
          [.registerReplica delayedReplica] ∧
        ∀ pre mid post, [Operation.registerReplica delayedReplica] = pre ++ mid ++ post →
          ReplicasAdvance (after (Operation.step Float) moved pre)
            (after (Operation.step Float) moved (pre ++ mid))) := by
  have hnew : (after (Operation.step Float) {} (movedOnce.take 3)).replicas.find ⟨1⟩ = none := by
    decide +kernel
  have hfiled : (after (Operation.step Float) {} (movedOnce.take 5)).replicas.find ⟨1⟩ =
      some delayedReplica := by decide +kernel
  have hraises : Follows (Operation.step Float) Operation.RaisesReplica {} movedOnce := by
    refine ⟨trivial, trivial, trivial, fun _ r hr => ?_, trivial, fun _ r hr => ?_, trivial⟩
    · cases hnew.symm.trans hr
    · cases hfiled.symm.trans hr
      exact not_staleReplica.mpr (by decide)
  have hmoved : moved.replicas.find ⟨1⟩ = some movedReplica := by decide +kernel
  have hadmits : AdmitsReplica moved delayedReplica :=
    (admitsReplica_iff (F := Float)).mp (by decide +kernel)
  refine ⟨(stale_replicas_fenced_iff Float {} movedOnce (by decide)).mp hraises, fun h => ?_⟩
  have hback := (stale_replicas_fenced_iff Float moved _ (by decide)).mpr h
  exact hback.1 hadmits movedReplica hmoved (.inl (by decide))

end CacheDirectory
