/-
  File:      CacheDirectory/Invariants/Revocation.lean
  Subject:   WHETHER A REVOKED LEASE STAYS REVOKED.

  `renew_lease` refuses a lease that is REVOKED; nothing else looks for that state. Registration
  under the same id writes over it, expiry and the loss of the holder replace it, and after them
  the lease can be renewed.

  * `Spent` -- the lease is not ACTIVE, if it is on file at all;
  * `sparesRevoked_iff` -- one call keeps it so exactly when it neither registers the lease as
    ACTIVE nor renews it;
  * `revocation_final_iff` -- along runs behind the revocation.
-/
import CacheDirectory.Invariants.Authority

namespace CacheDirectory

open Library Directory

/-! ## 1. One lease -/

/-- The lease filed under the id, if there is one, is not ACTIVE. -/
def Spent (id : LeaseId) (d : Directory) : Prop :=
  ∀ l, d.leases.find id = some l → l.state ≠ .active

/-- What `register_lease` asks before it files the lease. -/
structure AdmitsLease (d : Directory) (lease : LeaseDescriptor) : Prop where
  named : lease.leaseId.isNull = false
  held : lease.holder.isNull = false
  epoch : lease.authority.epoch = d.epoch
  live : d.workerLive lease.holder = true
  holder : ∀ l, d.leases.find lease.leaseId = some l → l.holder = lease.holder

/-- The call does not make the lease ACTIVE: it is no registration of it in that state that is
    admitted, and no renewal of it that is granted. -/
def Operation.SparesRevoked (id : LeaseId) (op : Operation) (d : Directory) : Prop :=
  match op with
  | .registerLease lease => lease.leaseId = id → lease.state = .active → ¬ AdmitsLease d lease
  | .renewLease id' env now => id' = id → ¬ (Operation.renewLease id' env now).Granted d
  | _ => True

section Lease

variable {F : Type} [ScoreArith F] {id : LeaseId} {d : Directory}

theorem spent_of_leases {d' : Directory} (h : Spent id d) (hleases : d'.leases = d.leases) :
    Spent id d' := by
  unfold Spent
  rw [hleases]
  exact h

/-- Editing leases in place makes none ACTIVE when the edit does not. -/
theorem spent_adjust {d' : Directory} {p : LeaseDescriptor → Bool}
    {f : LeaseDescriptor → LeaseDescriptor} (hf : ∀ l, (f l).leaseId = l.leaseId)
    (h : Spent id d) (hleases : d'.leases = d.leases.adjust p f hf)
    (hedit : ∀ l, p l = true → l.leaseId = id → (f l).state ≠ .active) : Spent id d' := by
  intro l' hl'
  rw [hleases, KeyedMap.find_adjust] at hl'
  obtain ⟨l, hl, rfl⟩ := Option.map_eq_some_iff.mp hl'
  split
  · exact hedit l ‹_› (KeyedMap.find_eq_some.mp hl).2
  · exact h l hl

/-- The same for the lease filed under one id. -/
theorem spent_leaseAt {id' : LeaseId} {f : LeaseDescriptor → LeaseDescriptor}
    {hf : ∀ l, (f l).leaseId = l.leaseId} (h : Spent id d)
    (hedit : id' = id → ∀ l, (f l).state ≠ .active) : Spent id (leaseAt d id' f hf) :=
  spent_adjust hf h rfl fun l hl hown => hedit ((beq_iff_eq.mp hl).symm.trans hown) l

/-- The lease behind a step of it. -/
theorem find_leaseAt {f : LeaseDescriptor → LeaseDescriptor}
    {hf : ∀ l, (f l).leaseId = l.leaseId} {l : LeaseDescriptor}
    (hl : d.leases.find id = some l) : (leaseAt d id f hf).leases.find id = some (f l) := by
  show (d.leases.adjust (fun l => l.leaseId == id) f hf).find id = some (f l)
  rw [KeyedMap.find_adjust, hl, Option.map_some,
    if_pos (beq_iff_eq.mpr (KeyedMap.find_eq_some.mp hl).2)]

theorem registerLease_admitted {lease : LeaseDescriptor} (h : AdmitsLease d lease) :
    (d.registerLease lease).2.leases = d.leases.put lease := by
  have haccepted : (Operation.registerLease lease).Accepted Float d :=
    accepted_registerLease.mpr ⟨h.named, h.held, h.epoch, h.live, h.holder⟩
  exact congrArg Directory.leases (accepted_report_guarded haccepted).2

theorem registerLease_refused {lease : LeaseDescriptor} (h : ¬ AdmitsLease d lease) :
    (d.registerLease lease).2 = d := by
  have hrejected : ¬ (Operation.registerLease lease).Accepted Float d := by
    intro haccepted
    obtain ⟨hnamed, hheld, hepoch, hlive, hholder⟩ := accepted_registerLease.mp haccepted
    exact h ⟨hnamed, hheld, hepoch, hlive, hholder⟩
  exact rejected_step rfl (by simp) hrejected

/-- What a granted renewal leaves of the lease. -/
theorem renewLease_granted {env : AuthorityEnvelope} {now : TimestampNs}
    (h : (Operation.renewLease id env now).Granted d) :
    ∃ l, (d.renewLease id env now).2.leases.find id = some l ∧ l.state = .active := by
  rcases @renewLease_cases id env d now with ⟨f, hend⟩ | ⟨l, hl, _, hend⟩
  · have haccepted : (Operation.renewLease id env now).Accepted Float d :=
      accepted_renewLease.mpr h
    obtain ⟨a, ha⟩ := report_eq_none.mp haccepted
    rw [hend] at ha
    cases ha
  · rw [hend]
    exact ⟨_, find_leaseAt hl, rfl⟩

/-- **One call keeps the lease from being ACTIVE exactly when it spares it.** -/
theorem sparesRevoked_iff (op : Operation) (d : Directory) (hd : Spent id d) :
    op.SparesRevoked id d ↔ Spent id (op.step F d) := by
  cases op with
  | registerLease lease =>
      show _ ↔ Spent id (d.registerLease lease).2
      by_cases hadmits : AdmitsLease d lease
      · unfold Spent
        rw [registerLease_admitted hadmits, KeyedMap.find_put]
        by_cases hid : lease.leaseId = id
        · rw [if_pos hid]
          constructor
          · intro hspares l hl hactive
            cases hl
            exact hspares hid hactive hadmits
          · intro h _ hactive _
            exact h lease rfl hactive
        · rw [if_neg hid]
          exact iff_of_true (fun h => absurd h hid) hd
      · rw [registerLease_refused hadmits]
        exact iff_of_true (fun _ _ => hadmits) hd
  | renewLease id' env now =>
      show (id' = id → _) ↔ Spent id (d.renewLease id' env now).2
      by_cases hid : id' = id
      · subst hid
        by_cases hgranted : (Operation.renewLease id' env now).Granted d
        · obtain ⟨l, hl, hactive⟩ := renewLease_granted hgranted
          exact iff_of_false (fun h => h rfl hgranted) fun h => h l hl hactive
        · have hrefused : (Operation.renewLease id' env now).Refused F d :=
            (refused_iff_not_granted F rfl).mpr hgranted
          have hsame : (d.renewLease id' env now).2 = d := hrefused.2
          rw [hsame]
          exact iff_of_true (fun _ => hgranted) hd
      · refine iff_of_true (fun h => absurd h hid) ?_
        exact renewLease_keeps (P := Spent id) hd (spent_leaseAt hd fun h => absurd h hid)
  | onWorkerLoss boot reason =>
      refine iff_of_true trivial ?_
      show Spent id (d.onWorkerLoss boot reason).2
      unfold onWorkerLoss
      split
      · exact hd
      · exact spent_adjust (f := fun l => { l with state := .revalidationRequired })
          (fun _ => rfl) hd rfl fun _ _ _ h => by cases h
  | expireLease id' env reason =>
      exact iff_of_true trivial
        (expireLease_keeps (P := Spent id) hd (spent_leaseAt hd fun _ _ h => by cases h))
  | revokeLease id' env reason =>
      exact iff_of_true trivial
        (revokeLease_keeps (P := Spent id) hd (spent_leaseAt hd fun _ _ h => by cases h))
  | recoverFromBuffer buf =>
      refine iff_of_true trivial (recover_keeps F hd fun s _ _ l hl => ?_)
      have hl' : ((KeyedMap.ofList LeaseDescriptor.leaseId s.leases).find id).map recoverLease =
          some l := (KeyedMap.find_adjust_all _ recoverLease (fun _ => rfl) id).symm.trans hl
      obtain ⟨x, _, rfl⟩ := Option.map_eq_some_iff.mp hl'
      exact fun h => by cases h
  | registerEntry record clk =>
      exact iff_of_true trivial (commit_keeps (P := Spent id) hd fun _ => hd)
  | _ => exact iff_of_true trivial (spent_of_leases hd ((restKept_step F rfl d).leases rfl))

end Lease

/-! ## 2. Runs -/

/-- What a revocation that succeeds leaves of the lease. -/
theorem spent_revoked {F : Type} [ScoreArith F] {d : Directory} {id : LeaseId}
    {env : AuthorityEnvelope} {reason : Bytes}
    (haccepted : (Operation.revokeLease id env reason).Accepted F d) :
    Spent id ((Operation.revokeLease id env reason).step F d) := by
  show Spent id (d.revokeLease id env reason).2
  obtain ⟨l, hl⟩ := accepted_revokeLease.mp haccepted
  rw [revokeLease_behind haccepted]
  intro l' hl'
  rw [find_leaseAt hl] at hl'
  cases hl'
  exact fun h => by cases h

/-- **Behind a revocation the lease is never ACTIVE again exactly along the runs whose calls all
    spare it.** -/
theorem revocation_final_iff (F : Type) [ScoreArith F] (d : Directory) (id : LeaseId)
    (env : AuthorityEnvelope) (reason : Bytes)
    (haccepted : (Operation.revokeLease id env reason).Accepted F d) (ops : List Operation) :
    Follows (Operation.step F) (Operation.SparesRevoked id)
        ((Operation.revokeLease id env reason).step F d) ops ↔
      ∀ t ∈ visited (Operation.step F) ((Operation.revokeLease id env reason).step F d) ops,
        Spent id t :=
  follows_iff_visited sparesRevoked_iff ops _ (spent_revoked haccepted)

/-- The holder registers the lease once more, as ACTIVE. -/
def registeredAgain : List Operation :=
  [.registerLease
    { leaseId := ⟨1⟩, holder := ⟨1⟩, state := .active, authority := { epoch := ⟨1⟩ } }]

def renewal : Operation := .renewLease ⟨1⟩ { epoch := ⟨1⟩, boot := ⟨1⟩, fence := 1 } 1

/-- The holder expires the lease and renews it. -/
def expiredAndRenewed : List Operation := [expiryOf ⟨1⟩, renewal]

/-- The states the leases are in behind a revocation of lease 1 and the calls. -/
def statesBehind (ops : List Operation) : List LeaseState :=
  (after (Operation.step Float) ((revocationOf ⟨1⟩).step Float leased) ops).leases.values.map
    (·.state)

/-- **The counterexample**: the lease is revoked, a renewal of it is refused, and both runs make
    it ACTIVE again. -/
theorem revoked_active_again :
    Reached Float leasedOnce leased ∧ (revocationOf ⟨1⟩).Accepted Float leased ∧
      statesBehind [] = [.revoked] ∧
      statesBehind [renewal] = [.revoked] ∧
      statesBehind registeredAgain = [.active] ∧ statesBehind expiredAndRenewed = [.active] :=
  ⟨after_mem_visited _ _ _, by decide +kernel, by decide +kernel, by decide +kernel,
    by decide +kernel, by decide +kernel⟩

theorem revocation_final_leased :
    Follows (Operation.step Float) (Operation.SparesRevoked ⟨1⟩)
        ((revocationOf ⟨1⟩).step Float leased) expiredAndRenewed ↔
      ∀ t ∈ visited (Operation.step Float) ((revocationOf ⟨1⟩).step Float leased)
        expiredAndRenewed, Spent ⟨1⟩ t :=
  revocation_final_iff Float leased ⟨1⟩ { epoch := ⟨1⟩ } [] (by decide +kernel) expiredAndRenewed

end CacheDirectory
