/-
  File:      CacheDirectory/Invariants/Leases.lean
  Subject:   WHETHER THE HOLDER OF AN ACTIVE LEASE IS LIVE.

  `register_lease` asks whether the holder is live, `on_worker_loss` demotes what a lost boot
  holds, recovery demotes the whole table. `renew_lease` compares boots and fences and never asks
  for the session, and recovery leaves the copies of leases inside the records as they are.

  * `HoldersLive` -- the holder of every ACTIVE lease has a live session;
  * `renewsLive_iff` -- one call keeps it so exactly when it renews for live holders only;
  * `noneActive_install` -- what an accepted snapshot leaves ACTIVE;
  * `active_leases_live_iff` -- along runs.
-/
import CacheDirectory.Invariants.Revocation
import CacheDirectory.Recovery.Epochs

namespace CacheDirectory

open Library Directory

/-! ## 1. The table -/

/-- The holder of every ACTIVE lease has a live session. -/
def HoldersLive (d : Directory) : Prop :=
  ∀ l ∈ d.leases.values, l.state = .active → d.workerLive l.holder = true

/-- The call renews leases of live holders only. -/
def Operation.RenewsLive (op : Operation) (d : Directory) : Prop :=
  match op with
  | .renewLease id env now =>
      (Operation.renewLease id env now).Granted d → d.workerLive env.boot = true
  | _ => True

section Table

variable {F : Type} [ScoreArith F] {d d' : Directory}

/-- What leaves the table alone and ends no session. -/
theorem holdersLive_of_same (hd : HoldersLive d) (hleases : d'.leases = d.leases)
    (hlive : ∀ b, d.workerLive b = true → d'.workerLive b = true) : HoldersLive d' := by
  intro l hl hactive
  rw [hleases] at hl
  exact hlive _ (hd l hl hactive)

/-- Editing leases in place without making one ACTIVE. -/
theorem holdersLive_adjust {p : LeaseDescriptor → Bool} {f : LeaseDescriptor → LeaseDescriptor}
    (hf : ∀ l, (f l).leaseId = l.leaseId) (hd : HoldersLive d)
    (hleases : d'.leases = d.leases.adjust p f hf) (hidle : ∀ l, (f l).state ≠ .active)
    (hlive : ∀ l, p l = false → d.workerLive l.holder = true → d'.workerLive l.holder = true) :
    HoldersLive d' := by
  intro l' hl' hactive
  rw [hleases] at hl'
  obtain ⟨l, hl, rfl⟩ := KeyedMap.mem_adjust.mp hl'
  by_cases hp : p l = true
  · rw [if_pos hp] at hactive
    exact absurd hactive (hidle l)
  · rw [if_neg hp] at hactive ⊢
    exact hlive l (Bool.eq_false_of_not_eq_true hp) (hd l hl hactive)

theorem mem_leaseAt {id : LeaseId} {f : LeaseDescriptor → LeaseDescriptor}
    {hf : ∀ l, (f l).leaseId = l.leaseId} {l' : LeaseDescriptor}
    (h : l' ∈ (leaseAt d id f hf).leases.values) :
    ∃ l ∈ d.leases.values, (if l.leaseId == id then f l else l) = l' := by
  have hmem : l' ∈ (d.leases.adjust (fun l => l.leaseId == id) f hf).values := h
  exact KeyedMap.mem_adjust.mp hmem

theorem holdersLive_leaseAt {id : LeaseId} {f : LeaseDescriptor → LeaseDescriptor}
    {hf : ∀ l, (f l).leaseId = l.leaseId} (hd : HoldersLive d)
    (hidle : ∀ l, (f l).state ≠ .active) : HoldersLive (leaseAt d id f hf) :=
  holdersLive_adjust hf hd rfl hidle fun _ _ h => h

/-- Registration asks for the holder's session. -/
theorem holdersLive_registerLease (lease : LeaseDescriptor) (hd : HoldersLive d) :
    HoldersLive (d.registerLease lease).2 := by
  by_cases hadmits : AdmitsLease d lease
  · have hkept : AuthorityKept d ((Operation.registerLease lease).step Float d) :=
      authorityKept_step Float rfl d
    have hlive (b : WorkerBootId) : (d.registerLease lease).2.workerLive b = d.workerLive b :=
      hkept.workerLive b
    intro l hl hactive
    rw [registerLease_admitted hadmits] at hl
    rw [hlive]
    rcases KeyedMap.mem_put.mp hl with rfl | ⟨hold, _⟩
    · exact hadmits.live
    · exact hd l hold hactive
  · rw [registerLease_refused hadmits]
    exact hd

/-- The loss of a boot ends one session, and demotes what it holds. -/
theorem holdersLive_onWorkerLoss (b : WorkerBootId) (reason : Bytes) (hd : HoldersLive d) :
    HoldersLive (d.onWorkerLoss b reason).2 := by
  by_cases hlive : d.workerLive b = true
  · refine holdersLive_adjust (f := fun l => { l with state := .revalidationRequired })
      (fun _ => rfl) hd (leases_onWorkerLoss reason hlive) (fun _ h => by cases h) ?_
    intro l hother hholder
    exact (workerLive_lost b reason).mpr ⟨hholder, fun h => by simp [h] at hother⟩
  · rw [onWorkerLoss_idle hlive]
    exact hd

/-- **A renewal keeps it so exactly when the holder is live, if it is granted.** -/
theorem holdersLive_renewLease {id : LeaseId} {env : AuthorityEnvelope} {now : TimestampNs}
    (hd : HoldersLive d) :
    (Operation.renewLease id env now).RenewsLive d ↔ HoldersLive (d.renewLease id env now).2 := by
  show (_ → _) ↔ _
  rcases @renewLease_cases id env d now with ⟨f, hend⟩ | ⟨l, hl, hgranted, hend⟩
  · rw [hend]
    refine iff_of_true ?_ hd
    intro hgranted
    have haccepted : (Operation.renewLease id env now).Accepted Float d :=
      accepted_renewLease.mpr hgranted
    obtain ⟨a, ha⟩ := report_eq_none.mp haccepted
    rw [hend] at ha
    cases ha
  · have hgrant : (Operation.renewLease id env now).Granted d := ⟨l, hl, hgranted⟩
    obtain ⟨hmem, hkey⟩ := KeyedMap.find_eq_some.mp hl
    rw [hend, imp_iff_right hgrant]
    constructor
    · intro hlive l' hl' hactive
      obtain ⟨x, hx, rfl⟩ := mem_leaseAt hl'
      by_cases hp : (x.leaseId == id) = true
      · have hsame : x = l := KeyedMap.eq_of_key hx hmem ((beq_iff_eq.mp hp).trans hkey.symm)
        rw [if_pos hp, hsame]
        show d.workerLive l.holder = true
        rw [hgranted.2.1]
        exact hlive
      · rw [if_neg hp] at hactive ⊢
        exact hd x hx hactive
    · intro h
      have hbehind : renewed env now l ∈
          (leaseAt d id (renewed env now) fun _ => rfl).leases.values :=
        (KeyedMap.find_eq_some.mp (find_leaseAt hl)).1
      rw [← hgranted.2.1]
      exact h (renewed env now l) hbehind rfl

/-- Recovery demotes the whole table. -/
theorem state_of_install {s : Snapshot} {l : LeaseDescriptor}
    (hl : l ∈ (d.install s).leases.values) : l.state = .revalidationRequired := by
  have hmem : l ∈ ((KeyedMap.ofList LeaseDescriptor.leaseId s.leases).adjust (fun _ => true)
      recoverLease fun _ => rfl).values := hl
  obtain ⟨x, _, rfl⟩ := KeyedMap.mem_adjust.mp hmem
  rfl

/-- **One call keeps the holders of ACTIVE leases live exactly when it renews for live holders
    only.** -/
theorem renewsLive_iff (op : Operation) (d : Directory) (hd : HoldersLive d) :
    op.RenewsLive d ↔ HoldersLive (op.step F d) := by
  cases op with
  | renewLease id env now => exact holdersLive_renewLease hd
  | registerWorkerSession session =>
      refine iff_of_true trivial (holdersLive_of_same hd ((restKept_step F rfl d).leases rfl) ?_)
      exact fun b hlive => (workerLive_registered session).mpr (.inl hlive)
  | onWorkerLoss b reason => exact iff_of_true trivial (holdersLive_onWorkerLoss b reason hd)
  | registerLease lease => exact iff_of_true trivial (holdersLive_registerLease lease hd)
  | expireLease id env reason =>
      exact iff_of_true trivial (expireLease_keeps (P := HoldersLive) hd
        (holdersLive_leaseAt hd fun _ h => by cases h))
  | revokeLease id env reason =>
      exact iff_of_true trivial (revokeLease_keeps (P := HoldersLive) hd
        (holdersLive_leaseAt hd fun _ h => by cases h))
  | recoverFromBuffer buf =>
      refine iff_of_true trivial (recover_keeps F (P := HoldersLive) hd fun s _ _ l hl h => ?_)
      rw [state_of_install hl] at h
      cases h
  | registerEntry record clk =>
      exact iff_of_true trivial (commit_keeps (P := HoldersLive) hd fun _ => hd)
  | _ =>
      refine iff_of_true trivial (holdersLive_of_same hd ((restKept_step F rfl d).leases rfl) ?_)
      exact fun b hlive => ((authorityKept_step F rfl d).workerLive b).trans hlive

end Table

/-! ## 2. Recovery -/

/-- No lease is ACTIVE, neither in the table nor as the copy a record holds. -/
structure NoneActive (d : Directory) : Prop where
  table : ∀ l ∈ d.leases.values, l.state ≠ .active
  copies : ∀ r ∈ d.records, r.hasLease = true → r.lease.state ≠ .active

/-- If the call is a recovery that is accepted, no record of the snapshot holds an ACTIVE lease. -/
def Operation.RecoversIdle (op : Operation) : Prop :=
  match op with
  | .recoverFromBuffer buf =>
      ∀ s, acceptedSnapshot buf = some s → ∀ r ∈ s.records, r.hasLease = true →
        r.lease.state ≠ .active
  | _ => True

/-- **A recovery leaves ACTIVE what records hold, and nothing else.** -/
theorem noneActive_install (s : Snapshot) (d : Directory) :
    NoneActive (d.install s) ↔ ∀ r ∈ s.records, r.hasLease = true → r.lease.state ≠ .active := by
  have hcopies : (∀ r ∈ (d.install s).records, r.hasLease = true → r.lease.state ≠ .active) ↔
      ∀ r ∈ s.records, r.hasLease = true → r.lease.state ≠ .active := List.forall_mem_map
  constructor
  · intro h
    exact hcopies.mp h.copies
  · intro h
    refine ⟨fun l hl hactive => ?_, hcopies.mpr h⟩
    rw [state_of_install hl] at hactive
    cases hactive

/-- The recoveries of a run one by one. -/
theorem recoversIdle_iff (F : Type) [ScoreArith F] (ops : List Operation) :
    Follows (Operation.step F) (fun op _ => op.RecoversIdle) {} ops ↔
      ∀ pre buf post, ops = pre ++ .recoverFromBuffer buf :: post →
        (Operation.recoverFromBuffer buf).Accepted F (after (Operation.step F) {} pre) →
        NoneActive
          ((Operation.recoverFromBuffer buf).step F (after (Operation.step F) {} pre)) := by
  rw [follows_iff_splits]
  constructor
  · intro h pre buf post hsplit hacc
    obtain ⟨s, hs⟩ := accepted_recoverFromBuffer.mp hacc
    rw [step_of_accepted hs, noneActive_install]
    exact h pre _ post hsplit s hs
  · intro h pre op post hsplit
    cases op with
    | recoverFromBuffer buf =>
        intro s hs
        have hidle := h pre buf post hsplit (accepted_recoverFromBuffer.mpr ⟨s, hs⟩)
        rw [step_of_accepted hs, noneActive_install] at hidle
        exact hidle
    | _ => trivial

/-! ## 3. Runs -/

/-- **The holder of every ACTIVE lease is live in every state reached, and no lease is ACTIVE
    behind a recovery that is accepted**, exactly along the runs that renew for live holders only
    and recover no record with an ACTIVE lease. -/
theorem active_leases_live_iff (F : Type) [ScoreArith F] (ops : List Operation) :
    Follows (Operation.step F) (fun op d => op.RenewsLive d ∧ op.RecoversIdle) {} ops ↔
      (∀ d, Reached F ops d →
        ∀ l ∈ d.leases.values, l.state = .active → d.workerLive l.holder = true) ∧
      ∀ pre buf post, ops = pre ++ .recoverFromBuffer buf :: post →
        (Operation.recoverFromBuffer buf).Accepted F (after (Operation.step F) {} pre) →
        NoneActive
          ((Operation.recoverFromBuffer buf).step F (after (Operation.step F) {} pre)) := by
  have hstart : HoldersLive {} := fun l hl => (List.not_mem_nil hl).elim
  rw [follows_and, recoversIdle_iff, follows_iff_visited renewsLive_iff ops {} hstart]
  rfl

/-- The lease's holder is lost, and its renewal under a greater fence comes in. -/
def renewedAfterLoss : List Operation := leasedOnce ++ [.onWorkerLoss ⟨1⟩ [], renewal]

def deadHolder : Directory := after (Operation.step Float) {} renewedAfterLoss

/-- A copy registered under an ACTIVE lease, and the recovery of its snapshot. -/
def heldOnce : List Operation :=
  oneCopy ++ [.registerEntry { copyRecord ⟨1⟩ ⟨1⟩ with
    hasLease := true
    lease := { leaseId := ⟨1⟩, holder := ⟨1⟩, state := .active } } fun _ => 1]

def held : Directory := after (Operation.step Float) {} heldOnce

def recoverHeld : Operation := .recoverFromBuffer (held.saveToBuffer .stored).2

/-- **The counterexample**: the lease of a lost boot is renewed and ACTIVE, and a recovered record
    holds an ACTIVE lease. -/
theorem lost_holder_renews :
    Reached Float renewedAfterLoss deadHolder ∧
      deadHolder.leases.values.map (fun l => (l.state, deadHolder.workerLive l.holder)) =
        [(.active, false)] ∧
      recoverHeld.Accepted Float held ∧
      (recoverHeld.step Float held).records.map (fun r => (r.hasLease, r.lease.state)) =
        [(true, .active)] := by
  have hinstalls : recoverHeld.installs = some (held.snapshotOf .stored) :=
    installs_saved (by decide +kernel)
  refine ⟨after_mem_visited _ _ _, by decide +kernel, (step_installs hinstalls _).1, ?_⟩
  rw [(step_installs hinstalls held).2]
  decide +kernel

end CacheDirectory
