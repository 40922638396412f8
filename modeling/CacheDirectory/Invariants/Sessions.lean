/-
  File:      CacheDirectory/Invariants/Sessions.lean
  Subject:   SESSIONS: WHO OPENS THEM, WHO ENDS THEM.

  Liveness is a flag of the session stored under a boot. `register_worker_session` refuses a boot
  whose session is live, and any other boot is welcome, a lost one too.

  * `authorityKept_step` -- no operation but the session operations and recovery touches epoch
    and sessions;
  * `workerLive_registered`, `workerLive_lost` -- what the session operations do to liveness;
  * `workerLive_step` -- a boot that is not live becomes live by its own registration only;
  * `lost_stays_lost_iff` -- a lost boot stays lost in a run exactly when the run does not
    register it again;
  * `restarted_worker_locked_out` -- the ids a lost boot registered are closed to the incarnation
    that follows it.
-/
import CacheDirectory.Invariants.Admission

namespace CacheDirectory

open Library Directory

/-! ## 1. What leaves the sessions alone -/

/-- The epoch and the sessions before and after a step. -/
structure AuthorityKept (d d' : Directory) : Prop where
  epoch : d'.epoch = d.epoch
  workers : d'.workers = d.workers

namespace AuthorityKept

theorem refl (d : Directory) : AuthorityKept d d := ⟨rfl, rfl⟩

theorem guarded {d : Directory} {ε α : Type} {checks : List (Bool × ε)} {act : α × Directory}
    (h : AuthorityKept d act.2) : AuthorityKept d (Library.guarded checks d act).2 :=
  guarded_keeps (P := AuthorityKept d) (refl d) fun _ => h

theorem workerLive {d d' : Directory} (h : AuthorityKept d d') (b : WorkerBootId) :
    d'.workerLive b = d.workerLive b := by
  unfold Directory.workerLive
  rw [h.workers]

end AuthorityKept

section Operations

variable (d : Directory)

theorem authorityKept_ensureIndexes : AuthorityKept d d.ensureIndexes := by
  unfold ensureIndexes
  split
  · exact .refl d
  · exact ⟨rfl, rfl⟩

theorem authorityKept_registerEntry (record : DirectoryRecord) (clk : Nat → TimestampNs) :
    AuthorityKept d (d.registerEntry record clk).2 :=
  commit_keeps (P := AuthorityKept d) (.refl d) fun _ => ⟨rfl, rfl⟩

theorem authorityKept_updateEvidence (write : DirectoryRecord → DirectoryRecord)
    (id : DirectoryRecordId) (env : AuthorityEnvelope) (now : TimestampNs) :
    AuthorityKept d (updateEvidence write id env now d).2 :=
  updateEvidence_keeps (P := AuthorityKept d) (.refl d) (fun _ _ => ⟨rfl, rfl⟩)
    fun _ _ _ => ⟨rfl, rfl⟩

theorem authorityKept_updateLifecycle (id : DirectoryRecordId) (s : LifecycleState)
    (env : AuthorityEnvelope) (now : TimestampNs) :
    AuthorityKept d (d.updateLifecycle id s env now).2 :=
  updateLifecycle_keeps (P := AuthorityKept d) (.refl d) fun _ _ => ⟨rfl, rfl⟩

theorem authorityKept_updateCache {write : CacheDescriptor → CacheDescriptor}
    (hwrite : ∀ c, (write c).cacheId = c.cacheId) (id : CacheId) (env : AuthorityEnvelope) :
    AuthorityKept d (updateCache write hwrite id env d).2 :=
  updateCache_keeps (P := AuthorityKept d) (.refl d) ⟨rfl, rfl⟩

theorem authorityKept_renewLease (id : LeaseId) (env : AuthorityEnvelope) (now : TimestampNs) :
    AuthorityKept d (d.renewLease id env now).2 :=
  renewLease_keeps (P := AuthorityKept d) (.refl d) ⟨rfl, rfl⟩

theorem authorityKept_expireLease (id : LeaseId) (env : AuthorityEnvelope) (reason : Bytes) :
    AuthorityKept d (d.expireLease id env reason).2 :=
  expireLease_keeps (P := AuthorityKept d) (.refl d) ⟨rfl, rfl⟩

theorem authorityKept_revokeLease (id : LeaseId) (env : AuthorityEnvelope) (reason : Bytes) :
    AuthorityKept d (d.revokeLease id env reason).2 :=
  revokeLease_keeps (P := AuthorityKept d) (.refl d) ⟨rfl, rfl⟩

end Operations

/-- The operations that open and end sessions. -/
def Operation.onSessions : Operation → Bool
  | .registerWorkerSession _ => true
  | .onWorkerLoss _ _ => true
  | .recoverFromBuffer _ => true
  | _ => false

/-- **No other operation touches the epoch or a session.** -/
theorem authorityKept_step (F : Type) [ScoreArith F] {op : Operation} (hop : op.onSessions = false)
    (d : Directory) : AuthorityKept d (op.step F d) := by
  cases op with
  | registerWorkerSession session => cases hop
  | onWorkerLoss boot reason => cases hop
  | recoverFromBuffer buf => cases hop
  | registerCache cache => exact AuthorityKept.guarded ⟨rfl, rfl⟩
  | registerLocation loc => exact AuthorityKept.guarded ⟨rfl, rfl⟩
  | registerReplica replica => exact AuthorityKept.guarded ⟨rfl, rfl⟩
  | registerEntry record clk => exact authorityKept_registerEntry d record clk
  | updateHealth id h env now => exact authorityKept_updateEvidence d _ id env now
  | updateFreshness id f env now => exact authorityKept_updateEvidence d _ id env now
  | updateReachability id reach env now => exact authorityKept_updateEvidence d _ id env now
  | updateIntegrity id integ env now => exact authorityKept_updateEvidence d _ id env now
  | updateLifecycle id s env now => exact authorityKept_updateLifecycle d id s env now
  | updateCacheHealth id h reach env => exact authorityKept_updateCache d _ id env
  | updateCacheCapacity id capacity free env => exact authorityKept_updateCache d _ id env
  | registerLease lease => exact AuthorityKept.guarded ⟨rfl, rfl⟩
  | renewLease id env now => exact authorityKept_renewLease d id env now
  | expireLease id env reason => exact authorityKept_expireLease d id env reason
  | revokeLease id env reason => exact authorityKept_revokeLease d id env reason
  | invalidateState s g env reason clk => exact AuthorityKept.guarded ⟨rfl, rfl⟩
  | invalidateLocation loc env reason clk => exact AuthorityKept.guarded ⟨rfl, rfl⟩
  | invalidateReplica rep env reason clk => exact AuthorityKept.guarded ⟨rfl, rfl⟩
  | invalidateCache c env reason clk => exact AuthorityKept.guarded ⟨rfl, rfl⟩
  | invalidateWorkerBoot b env reason clk => exact AuthorityKept.guarded ⟨rfl, rfl⟩
  | tombstone t => exact AuthorityKept.guarded ⟨rfl, rfl⟩
  | query order q =>
      have h := authorityKept_ensureIndexes d
      exact ⟨h.epoch, h.workers⟩
  | setRankingPolicy p => exact ⟨rfl, rfl⟩
  | validateIndexes =>
      have h := authorityKept_ensureIndexes d
      exact guarded_keeps (P := AuthorityKept d) h fun _ => h
  | indexes => exact authorityKept_ensureIndexes d
  | nextObjectId => exact ⟨rfl, rfl⟩

/-- **Only recovery gives the directory another epoch.** -/
theorem epoch_step (F : Type) [ScoreArith F] {op : Operation} (hop : op.isRecovery = false)
    (d : Directory) : (op.step F d).epoch = d.epoch := by
  have hquiet (h : op.onSessions = false) : (op.step F d).epoch = d.epoch :=
    (authorityKept_step F h d).epoch
  cases op with
  | registerWorkerSession session =>
      exact guarded_keeps (P := fun t : Directory => t.epoch = d.epoch) rfl fun _ => rfl
  | onWorkerLoss boot reason =>
      show (d.onWorkerLoss boot reason).2.epoch = d.epoch
      unfold onWorkerLoss
      split
      · rfl
      · rfl
  | recoverFromBuffer buf => cases hop
  | _ => exact hquiet rfl

/-! ## 2. Liveness -/

/-- The session names its boot and its worker. -/
structure WorkerSession.Welcome (s : WorkerSession) : Prop where
  boot : s.boot.isNull = false
  worker : s.worker.isNull = false

section Liveness

variable {d : Directory} {b : WorkerBootId}

/-- **The two ways a session registration ends.** -/
theorem registerWorkerSession_cases (s : WorkerSession) :
    (∃ f, d.registerWorkerSession s = (.error f, d) ∧
        ¬ (s.Welcome ∧ d.workerLive s.boot = false)) ∨
      ((s.Welcome ∧ d.workerLive s.boot = false) ∧
        ∃ a, d.registerWorkerSession s = (.ok { s with live := true },
          { d with workers := d.workers.put { s with live := true }, accounting := a })) := by
  have hchecks : firstFailure
      [(s.boot.isNull, (⟨.invalidIdentity, "empty WorkerBootId"⟩ : Failure)),
        (s.worker.isNull, ⟨.invalidIdentity, "empty WorkerId"⟩),
        ((d.workers.find s.boot).any (·.live), ⟨.invalidIdentity, "worker boot already live"⟩)] =
          none ↔ s.Welcome ∧ d.workerLive s.boot = false := by
    rw [firstFailure_eq_none]
    simp only [List.forall_mem_cons]
    constructor
    · intro h
      obtain ⟨hboot, hworker, hlive, _⟩ := h
      exact ⟨⟨hboot, hworker⟩, hlive⟩
    · rintro ⟨⟨hboot, hworker⟩, hlive⟩
      exact ⟨hboot, hworker, hlive, by simp⟩
  unfold registerWorkerSession
  rcases guarded_cases _ _ _ with ⟨f, h⟩ | ⟨hpass, h⟩
  · refine .inl ⟨f, h, fun hw => ?_⟩
    rw [guarded_of_none (hchecks.mpr hw)] at h
    cases h
  · exact .inr ⟨hchecks.mp hpass, _, h⟩

/-- **Registration**: what was live stays live, and the boot of a welcome session is live. -/
theorem workerLive_registered (s : WorkerSession) :
    (d.registerWorkerSession s).2.workerLive b = true ↔
      d.workerLive b = true ∨ (s.boot = b ∧ s.Welcome) := by
  rcases registerWorkerSession_cases (d := d) s with ⟨f, h, hno⟩ | ⟨⟨hwelcome, _⟩, a, h⟩
  · rw [h]
    refine ⟨.inl, ?_⟩
    intro h
    rcases h with hlive | ⟨rfl, hwelcome⟩
    · exact hlive
    · by_contra hdead
      exact hno ⟨hwelcome, by simpa using hdead⟩
  · rw [h]
    unfold workerLive
    simp only [KeyedMap.find_put]
    by_cases hb : s.boot = b
    · simp [hb, hwelcome]
    · simp [hb]

/-- The loss of a boot that is not live changes nothing. -/
theorem onWorkerLoss_idle {boot : WorkerBootId} {reason : Bytes}
    (hdead : ¬ d.workerLive boot = true) : (d.onWorkerLoss boot reason).2 = d := by
  unfold onWorkerLoss
  rw [if_pos (by simpa using hdead)]

/-- The loss of a live boot demotes the leases it holds. -/
theorem leases_onWorkerLoss {boot : WorkerBootId} (reason : Bytes)
    (hlive : d.workerLive boot = true) :
    (d.onWorkerLoss boot reason).2.leases = d.leases.adjust (fun l => l.holder == boot)
      (fun l => { l with state := .revalidationRequired }) fun _ => rfl := by
  unfold onWorkerLoss
  rw [hlive]
  rfl

/-- **Loss**: the lost boot is not live, the others are as they were. -/
theorem workerLive_lost (boot : WorkerBootId) (reason : Bytes) :
    (d.onWorkerLoss boot reason).2.workerLive b = true ↔ d.workerLive b = true ∧ b ≠ boot := by
  unfold onWorkerLoss
  by_cases hdead : (!d.workerLive boot) = true
  · rw [if_pos hdead]
    refine ⟨fun h => ⟨h, ?_⟩, fun h => h.1⟩
    rintro rfl
    have hlive : d.workerLive b = true := h
    rw [hlive] at hdead
    cases hdead
  · rw [if_neg hdead]
    unfold workerLive recomputeAccounting
    simp only [KeyedMap.find_adjust]
    cases hfind : d.workers.find b with
    | none => simp
    | some w =>
        have hw : w.boot = b := (KeyedMap.find_eq_some.mp hfind).2
        by_cases hb : b = boot
        · simp [hw, hb]
        · simp [hw, hb]

/-- No session survives a recovery that is accepted. -/
theorem workerLive_install (s : Snapshot) : (d.install s).workerLive b = false := rfl

end Liveness

/-- The operation is the registration of a welcome session under the boot. -/
def Operation.Opens (b : WorkerBootId) (op : Operation) : Prop :=
  ∃ s, op = .registerWorkerSession s ∧ s.boot = b ∧ s.Welcome

/-- **A boot that is not live becomes live by its own registration only**, recovery of any bytes
    included. -/
theorem workerLive_step (F : Type) [ScoreArith F] {d : Directory} {b : WorkerBootId}
    (hdead : d.workerLive b = false) (op : Operation) :
    (op.step F d).workerLive b = false ↔ ¬ op.Opens b := by
  have hquiet (hop : op.onSessions = false) :
      (op.step F d).workerLive b = false ↔ ¬ op.Opens b := by
    refine iff_of_true ?_ ?_
    · rw [(authorityKept_step F hop d).workerLive b]
      exact hdead
    · rintro ⟨s, rfl, _⟩
      cases hop
  cases op with
  | registerWorkerSession s =>
      have hreg := workerLive_registered (d := d) (b := b) s
      rw [hdead] at hreg
      rw [← Bool.not_eq_true]
      refine not_congr (hreg.trans ?_)
      constructor
      · intro h
        rcases h with hlive | hopen
        · cases hlive
        · exact ⟨s, rfl, hopen⟩
      · intro h
        obtain ⟨s', hs, hopen⟩ := h
        cases hs
        exact .inr hopen
  | onWorkerLoss boot reason =>
      refine iff_of_true ?_ ?_
      · rw [← Bool.not_eq_true]
        intro hlive
        have hlost := (workerLive_lost boot reason).mp hlive
        rw [hdead] at hlost
        cases hlost.1
      · intro h
        obtain ⟨s, hs, _⟩ := h
        cases hs
  | recoverFromBuffer buf =>
      refine iff_of_true ?_ ?_
      · exact recover_keeps F (P := fun d => d.workerLive b = false) hdead
          fun s _ _ => workerLive_install s
      · intro h
        obtain ⟨s, hs, _⟩ := h
        cases hs
  | _ => exact hquiet rfl

/-! ## 3. A lost boot -/

/-- The boot under which an operation registers, leases or buries something. -/
def Operation.assertedUnder : Operation → Option WorkerBootId
  | .registerCache c => some c.workerBoot
  | .registerLocation l => some l.workerBoot
  | .registerReplica r => some r.authority.boot
  | .registerEntry r _ => some r.authority.boot
  | .registerLease l => some l.holder
  | .tombstone t => some t.workerBoot
  | _ => none

/-- Nothing is asserted under a boot that is not live. -/
theorem rejected_of_dead (F : Type) [ScoreArith F] {d : Directory} {b : WorkerBootId}
    (hdead : d.workerLive b = false) {op : Operation} (hop : op.assertedUnder = some b) :
    ¬ op.Accepted F d := by
  have hlive {b' : WorkerBootId} (hb : some b' = some b) : ¬ d.workerLive b' = true := by
    cases hb
    simp [hdead]
  intro h
  cases op with
  | registerCache cache => exact hlive hop (accepted_registerCache.mp h).2.2.2.1
  | registerLocation loc => exact hlive hop (accepted_registerLocation.mp h).2.2.2.2.1
  | registerReplica replica => exact hlive hop (accepted_registerReplica.mp h).2.2.2.1
  | registerEntry record clk => exact hlive hop (authority_of_registerEntry h).2
  | registerLease lease => exact hlive hop (accepted_registerLease.mp h).2.2.2.1
  | tombstone t => exact hlive hop (accepted_tombstone.mp h).2.2
  | _ => cases hop

/-- **A lost boot stays lost, and nothing asserted under it is admitted, exactly in the runs that
    do not register it again.** -/
theorem lost_stays_lost_iff (F : Type) [ScoreArith F] (d : Directory) (b : WorkerBootId)
    (reason : Bytes) (ops : List Operation) :
    (∀ op ∈ ops, ¬ op.Opens b) ↔
      ∀ t ∈ visited (Operation.step F) (d.onWorkerLoss b reason).2 ops,
        t.workerLive b = false ∧
          ∀ op : Operation, op.assertedUnder = some b → ¬ op.Accepted F t := by
  have hlost : (d.onWorkerLoss b reason).2.workerLive b = false := by
    rw [← Bool.not_eq_true, workerLive_lost]
    exact fun h => h.2 rfl
  have hstep (op : Operation) (t : Directory) (ht : t.workerLive b = false) :
      ¬ op.Opens b ↔ (op.step F t).workerLive b = false := (workerLive_step F ht op).symm
  rw [← follows_const, follows_iff_visited hstep ops _ hlost]
  exact forall₂_congr fun t _ =>
    ⟨fun ht => ⟨ht, fun op hop => rejected_of_dead F ht hop⟩, fun h => h.1⟩

/-! ## 4. A small run -/

/-- Boot 1 is registered, lost, and registered again. -/
def lossAndReturn : List Operation :=
  [.registerWorkerSession attachedSession, .onWorkerLoss ⟨1⟩ [],
    .registerWorkerSession attachedSession]

/-- The state behind the first `n` operations of that run. -/
def lossAndReturnAfter (n : Nat) : Directory :=
  after (Operation.step Float) {} (lossAndReturn.take n)

/-- **The counterexample**: the lost incarnation says HELLO again, is live, and registers. -/
theorem lost_boot_returns :
    (lossAndReturnAfter 1).workerLive ⟨1⟩ = true ∧
      (lossAndReturnAfter 2).workerLive ⟨1⟩ = false ∧
      (lossAndReturnAfter 3).workerLive ⟨1⟩ = true ∧
      (Operation.registerCache (attachedCache ⟨1⟩ ⟨1⟩)).Accepted Float (lossAndReturnAfter 3) := by
  decide +kernel

/-! ## 5. The ids of a lost boot -/

/-- **No incarnation takes over what a lost one registered**: the ownership checks compare boots
    and never ask whether the owner is live, so a live boot is refused every id a lost one has on
    file. -/
theorem restarted_worker_locked_out (F : Type) [ScoreArith F] (d : Directory) :
    (∀ cache c, d.caches.find cache.cacheId = some c → d.workerLive c.workerBoot = false →
        d.workerLive cache.workerBoot = true → (Operation.registerCache cache).Refused F d) ∧
      (∀ loc l, d.locations.find loc.locationId = some l → d.workerLive l.workerBoot = false →
        d.workerLive loc.workerBoot = true → (Operation.registerLocation loc).Refused F d) ∧
      ∀ replica r, d.replicas.find replica.replicaId = some r →
        d.workerLive r.authority.boot = false → d.workerLive replica.authority.boot = true →
        (Operation.registerReplica replica).Refused F d := by
  have hother {old fresh : WorkerBootId} (hold : d.workerLive old = false)
      (hfresh : d.workerLive fresh = true) : old ≠ fresh := by
    rintro rfl
    rw [hold] at hfresh
    cases hfresh
  refine ⟨fun cache c hfind hold hfresh => ?_, fun loc l hfind hold hfresh => ?_,
    fun replica r hfind hold hfresh => ?_⟩
  · refine (refused_iff rfl (by simp)).mpr fun h => hother hold hfresh ?_
    exact ((accepted_registerCache.mp h).2.2.2.2 c hfind).1
  · refine (refused_iff rfl (by simp)).mpr fun h => hother hold hfresh ?_
    exact ((accepted_registerLocation.mp h).2.2.2.2.2 l hfind).1
  · refine (refused_iff rfl (by simp)).mpr fun h => hother hold hfresh ?_
    exact (accepted_registerReplica.mp h).2.2.2.2 r hfind

/-- One copy is attached, its owner is lost, and the worker starts again under boot 2. -/
def restart : List Operation :=
  oneCopy ++ [.onWorkerLoss ⟨1⟩ [], .registerWorkerSession { boot := ⟨2⟩, worker := ⟨1⟩ }]

def restarted : Directory := after (Operation.step Float) {} restart

/-- The fresh boot registers the cache, the location and the replica of that copy. -/
def freshCache : CacheDescriptor := { attachedCache ⟨1⟩ ⟨1⟩ with workerBoot := ⟨2⟩ }

def freshLocation : LocationDescriptor := { attachedLocation ⟨1⟩ ⟨1⟩ with workerBoot := ⟨2⟩ }

def freshReplica : ReplicaDescriptor :=
  { attachedReplica ⟨1⟩ ⟨1⟩ ⟨1⟩ ⟨1⟩ with authority := { epoch := ⟨1⟩, boot := ⟨2⟩ } }

/-- **The counterexample**: the fresh boot is live, and each of the three is refused. -/
theorem fresh_boot_refused :
    Reached Float restart restarted ∧ restarted.workerLive ⟨1⟩ = false ∧
      restarted.workerLive ⟨2⟩ = true ∧
      (restarted.registerCache freshCache).1 =
        .error ⟨.staleWorkerBoot, "cache owned by another incarnation"⟩ ∧
      (restarted.registerLocation freshLocation).1 =
        .error ⟨.staleWorkerBoot, "location owned by another incarnation"⟩ ∧
      (restarted.registerReplica freshReplica).1 =
        .error ⟨.staleWorkerBoot, "replica owned by another incarnation"⟩ := by
  refine ⟨after_mem_visited _ _ _, ?_⟩
  decide +kernel

/-- The cache as the loss of its owner left it. -/
def lostCache : CacheDescriptor :=
  { attachedCache ⟨1⟩ ⟨1⟩ with
    reachability := .unreachable
    health := .unavailable
    freshness := .stale }

theorem locked_out_restarted : (Operation.registerCache freshCache).Refused Float restarted :=
  (restarted_worker_locked_out Float restarted).1 freshCache lostCache (by decide +kernel)
    (by decide +kernel) (by decide +kernel)

end CacheDirectory
