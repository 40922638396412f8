/-
  File:      CacheDirectory/Invariants/Renewals.lean
  Subject:   WHAT RENEWALS DO TO THE TERM AND TO THE FENCE OF A LEASE.

  A renewal overwrites the start and then adds what is left from the NEW start to the expiry, so
  the expiry stays where registration put it. Its fence has to be greater than the stored one;
  an expiry stores the fence it comes with and compares it with nothing.

  * `lease_step` -- all that a call does to a lease that it does not register;
  * `expiry_step` -- none of it moves the expiry;
  * `renewal_extends_iff` -- a renewal extends the lease by its term exactly when the clock reads
    the start of the registration;
  * `keepsFence_iff`, `renewed_once_iff` -- the fence never decreases, and no renewal is accepted
    twice, exactly along the runs whose expiries carry fences not below the stored one.
-/
import CacheDirectory.Invariants.Revocation

namespace CacheDirectory

open Library Directory

/-! ## 1. One lease, one call -/

/-- The call does not put another lease under the id: it is no registration of it that is admitted,
    and no recovery. -/
def Operation.LeavesLease (id : LeaseId) (op : Operation) (d : Directory) : Prop :=
  match op with
  | .registerLease lease => lease.leaseId = id → ¬ AdmitsLease d lease
  | .recoverFromBuffer _ => False
  | _ => True

/-- What a call makes of the lease filed under the id. -/
inductive LeaseMove (id : LeaseId) (op : Operation) (d : Directory) (l : LeaseDescriptor) :
    LeaseDescriptor → Prop where
  | kept : LeaseMove id op d l l
  | lost : LeaseMove id op d l { l with state := .revalidationRequired }
  | renewed (env : AuthorityEnvelope) (now : TimestampNs) (hop : op = .renewLease id env now)
      (greater : ¬ env.fence ≤ l.authority.fence) : LeaseMove id op d l (renewed env now l)
  | expired (env : AuthorityEnvelope) (reason : Bytes) (hop : op = .expireLease id env reason)
      (holder : l.holder = env.boot) :
      LeaseMove id op d l
        { l with state := .expired, authority := { l.authority with fence := env.fence } }
  | revoked : LeaseMove id op d l { l with state := .revoked }

section Lease

variable {F : Type} [ScoreArith F] {id : LeaseId} {d : Directory} {l : LeaseDescriptor}

/-- A step of a lease leaves the leases filed under other ids. -/
theorem find_leaseAt_other {id' : LeaseId} {f : LeaseDescriptor → LeaseDescriptor}
    {hf : ∀ l, (f l).leaseId = l.leaseId} (hid : id' ≠ id) :
    (leaseAt d id' f hf).leases.find id = d.leases.find id :=
  KeyedMap.find_adjust_other hf (beq_eq_false_iff_ne.mpr (Ne.symm hid))

/-- The steps of leases: the one under the id makes the move, those of others leave it. -/
theorem leaseMove_at {op : Operation} {id' : LeaseId} {f : LeaseDescriptor → LeaseDescriptor}
    {hf : ∀ l, (f l).leaseId = l.leaseId} (hl : d.leases.find id = some l)
    (hmove : id' = id → LeaseMove id op d l (f l)) :
    ∃ l', (leaseAt d id' f hf).leases.find id = some l' ∧ LeaseMove id op d l l' := by
  by_cases hid : id' = id
  · subst hid
    exact ⟨f l, find_leaseAt hl, hmove rfl⟩
  · exact ⟨l, (find_leaseAt_other hid).trans hl, .kept⟩

/-- **All that a call does to a lease it does not register.** -/
theorem lease_step {op : Operation} (hop : op.LeavesLease id d) (hl : d.leases.find id = some l) :
    ∃ l', (op.step F d).leases.find id = some l' ∧ LeaseMove id op d l l' := by
  have hsame (d' : Directory) (h : d'.leases = d.leases) :
      ∃ l', d'.leases.find id = some l' ∧ LeaseMove id op d l l' :=
    ⟨l, by rw [h]; exact hl, .kept⟩
  cases op with
  | registerLease lease =>
      show ∃ l', (d.registerLease lease).2.leases.find id = some l' ∧ _
      by_cases hadmits : AdmitsLease d lease
      · have hid : lease.leaseId ≠ id := fun h => hop h hadmits
        rw [registerLease_admitted hadmits, KeyedMap.find_put, if_neg hid]
        exact ⟨l, hl, .kept⟩
      · rw [registerLease_refused hadmits]
        exact ⟨l, hl, .kept⟩
  | renewLease id' env now =>
      show ∃ l', (d.renewLease id' env now).2.leases.find id = some l' ∧ _
      rcases @renewLease_cases id' env d now with ⟨f, hend⟩ | ⟨l₀, hl₀, hgranted, hend⟩
      · rw [hend]
        exact hsame d rfl
      · rw [hend]
        refine leaseMove_at hl fun hid => ?_
        subst hid
        cases hl₀.symm.trans hl
        exact .renewed env now rfl hgranted.2.2.1
  | expireLease id' env reason =>
      show ∃ l', (d.expireLease id' env reason).2.leases.find id = some l' ∧ _
      rcases @expireLease_cases id' env d reason with ⟨f, hend⟩ | ⟨l₀, hl₀, hholder, hend⟩
      · rw [hend]
        exact hsame d rfl
      · rw [hend]
        refine leaseMove_at hl fun hid => ?_
        subst hid
        cases hl₀.symm.trans hl
        exact .expired env reason rfl hholder
  | revokeLease id' env reason =>
      show ∃ l', (d.revokeLease id' env reason).2.leases.find id = some l' ∧ _
      rcases @revokeLease_cases id' env d reason with ⟨f, hend⟩ | ⟨l₀, hl₀, hend⟩
      · rw [hend]
        exact hsame d rfl
      · rw [hend]
        exact leaseMove_at hl fun _ => .revoked
  | onWorkerLoss boot reason =>
      show ∃ l', (d.onWorkerLoss boot reason).2.leases.find id = some l' ∧ _
      unfold onWorkerLoss
      split
      · exact hsame d rfl
      · have hfind := KeyedMap.find_adjust d.leases (fun l => l.holder == boot)
          (fun l => { l with state := .revalidationRequired }) (fun _ => rfl) id
        rw [hl, Option.map_some] at hfind
        refine ⟨_, hfind, ?_⟩
        split
        · exact .lost
        · exact .kept
  | recoverFromBuffer buf => exact hop.elim
  | registerEntry record clk =>
      refine hsame _ ?_
      exact commit_keeps (P := fun d' => d'.leases = d.leases) rfl fun _ => rfl
  | _ => exact hsame _ ((restKept_step F rfl d).leases rfl)

/-- What behind a renewal that succeeds is filed under the id. -/
theorem find_renewed {env : AuthorityEnvelope} {now : TimestampNs}
    (h : (Operation.renewLease id env now).Granted d) (hl : d.leases.find id = some l) :
    ((Operation.renewLease id env now).step F d).leases.find id = some (renewed env now l) := by
  show (d.renewLease id env now).2.leases.find id = _
  have haccepted : (Operation.renewLease id env now).Accepted F d := accepted_renewLease.mpr h
  obtain ⟨a, ha⟩ := report_eq_none.mp haccepted
  rcases @renewLease_cases id env d now with ⟨f, hend⟩ | ⟨_, _, _, hend⟩
  · rw [hend] at ha
    cases ha
  · rw [hend]
    exact find_leaseAt hl

end Lease

/-! ## 2. The term -/

/-- The lease is on file with the expiry it was registered with. -/
def ExpiryKept (lease : LeaseDescriptor) (d : Directory) : Prop :=
  ∃ l, d.leases.find lease.leaseId = some l ∧ l.expiryNs = lease.expiryNs

/-- If the call is a renewal of the lease that is granted, the clock reads the start the lease was
    registered with. -/
def Operation.RenewsAtStart (lease : LeaseDescriptor) (op : Operation) (d : Directory) : Prop :=
  match op with
  | .renewLease id env now =>
      id = lease.leaseId → (Operation.renewLease id env now).Granted d → now = lease.startNs
  | _ => True

/-- If the call is a renewal of the lease that succeeds, the lease starts at the clock reading
    behind it and expires a term later, the term being that of the registration. -/
def Operation.ExtendsTerm (F : Type) [ScoreArith F] (lease : LeaseDescriptor) (op : Operation)
    (d : Directory) : Prop :=
  match op with
  | .renewLease id env now =>
      id = lease.leaseId → (Operation.renewLease id env now).Accepted F d →
        ∃ l, ((Operation.renewLease id env now).step F d).leases.find id = some l ∧
          l.startNs = now ∧ l.expiryNs - l.startNs = lease.expiryNs - lease.startNs
  | _ => True

section Term

variable {F : Type} [ScoreArith F] {lease : LeaseDescriptor}

/-- The sum of the new start and of what is left from it is the old expiry. -/
theorem expiryNs_renewed (env : AuthorityEnvelope) (now : TimestampNs) (l : LeaseDescriptor) :
    (renewed env now l).expiryNs = l.expiryNs := by
  show (if l.expires then now + (l.expiryNs - now) else l.expiryNs) = l.expiryNs
  rw [UInt64.add_comm, UInt64.sub_add_cancel, ite_self]

/-- **No call moves the expiry of a lease it does not register.** -/
theorem expiry_step (op : Operation) (d : Directory) (hd : ExpiryKept lease d)
    (hop : op.LeavesLease lease.leaseId d) : ExpiryKept lease (op.step F d) := by
  obtain ⟨l, hl, hexpiry⟩ := hd
  obtain ⟨l', hl', hmove⟩ := lease_step (F := F) hop hl
  refine ⟨l', hl', ?_⟩
  cases hmove with
  | renewed env now hop' greater => rw [expiryNs_renewed, hexpiry]
  | _ => exact hexpiry

/-- **One renewal extends the lease by its term exactly when the clock reads the start of the
    registration.** -/
theorem extendsTerm_iff (op : Operation) (d : Directory) (hd : ExpiryKept lease d) :
    op.RenewsAtStart lease d ↔ op.ExtendsTerm F lease d := by
  obtain ⟨l, hl, hexpiry⟩ := hd
  cases op with
  | renewLease id env now =>
      constructor
      · intro h hid haccepted
        subst hid
        have hgranted : (Operation.renewLease _ env now).Granted d :=
          accepted_renewLease.mp haccepted
        refine ⟨_, find_renewed hgranted hl, rfl, ?_⟩
        show (renewed env now l).expiryNs - now = _
        rw [expiryNs_renewed, hexpiry, h rfl hgranted]
      · intro h hid hgranted
        subst hid
        obtain ⟨l', hl', hstart, hterm⟩ := h rfl (accepted_renewLease.mpr hgranted)
        rw [find_renewed hgranted hl] at hl'
        cases hl'
        rw [hstart, expiryNs_renewed, hexpiry] at hterm
        exact (UInt64.sub_right_inj _).mp hterm
  | _ => exact Iff.rfl

/-- What a registration that succeeds puts on file. -/
theorem expiryKept_registered {d : Directory}
    (h : (Operation.registerLease lease).Accepted F d) :
    ExpiryKept lease ((Operation.registerLease lease).step F d) := by
  obtain ⟨hnamed, hheld, hepoch, hlive, hholder⟩ := accepted_registerLease.mp h
  have hleases := registerLease_admitted ⟨hnamed, hheld, hepoch, hlive, hholder⟩
  refine ⟨lease, ?_, rfl⟩
  show (d.registerLease lease).2.leases.find lease.leaseId = some lease
  rw [hleases, KeyedMap.find_put, if_pos rfl]

/-- **Behind the registration of a lease every renewal of it that succeeds extends it by its term
    exactly along the runs whose clock reads the registered start at every renewal that is
    granted.** -/
theorem renewal_extends_iff (F : Type) [ScoreArith F] (d : Directory) (lease : LeaseDescriptor)
    (haccepted : (Operation.registerLease lease).Accepted F d) (ops : List Operation)
    (hops : Follows (Operation.step F) (Operation.LeavesLease lease.leaseId)
      ((Operation.registerLease lease).step F d) ops) :
    Follows (Operation.step F) (Operation.RenewsAtStart lease)
        ((Operation.registerLease lease).step F d) ops ↔
      Follows (Operation.step F) (Operation.ExtendsTerm F lease)
        ((Operation.registerLease lease).step F d) ops :=
  follows_congr expiry_step (fun op d hd _ => extendsTerm_iff op d hd) ops _
    (expiryKept_registered haccepted) hops

end Term

/-- A lease from 10 to 110, and its holder. -/
def termLease : LeaseDescriptor :=
  { leaseId := ⟨1⟩, holder := ⟨1⟩, startNs := 10, expiryNs := 110, expires := true
    state := .active, authority := { epoch := ⟨1⟩ } }

def heldTerm : List Operation := [.registerWorkerSession attachedSession, .registerLease termLease]

def termHeld : Directory := after (Operation.step Float) {} heldTerm

def renewalAt (now : TimestampNs) : Operation :=
  .renewLease ⟨1⟩ { epoch := ⟨1⟩, boot := ⟨1⟩, fence := 1 } now

/-- **The counterexample**: the lease is renewed at 60 and expires at 110 as before, half a term
    later. -/
theorem renewal_shortens_term :
    Reached Float heldTerm termHeld ∧ (renewalAt 60).Accepted Float termHeld ∧
      ((renewalAt 60).step Float termHeld).leases.values.map (fun l => (l.startNs, l.expiryNs)) =
        [(60, 110)] ∧
      ¬ (renewalAt 60).ExtendsTerm Float termLease termHeld := by
  have haccepted : (renewalAt 60).Accepted Float termHeld := by decide +kernel
  have hterms : ((renewalAt 60).step Float termHeld).leases.values.map
      (fun l => (l.startNs, l.expiryNs)) = [(60, 110)] := by decide +kernel
  refine ⟨after_mem_visited _ _ _, haccepted, hterms, fun h => ?_⟩
  obtain ⟨l, hl, _, hterm⟩ := h rfl haccepted
  have hmem := List.mem_map_of_mem (f := fun l => (l.startNs, l.expiryNs))
    (KeyedMap.find_eq_some.mp hl).1
  have hpair : (l.startNs, l.expiryNs) = (60, 110) := by
    rw [← List.mem_singleton, ← hterms]
    exact hmem
  obtain ⟨hstart, hexpiry⟩ := Prod.mk.inj hpair
  rw [hstart, hexpiry] at hterm
  exact absurd hterm (by decide)

/-- Renewed at its start the lease runs its term, then renewed at 60 it does not. -/
theorem renewal_extends_termLease :
    Follows (Operation.step Float) (Operation.ExtendsTerm Float termLease)
        ((Operation.registerLease termLease).step Float
          (after (Operation.step Float) {} [.registerWorkerSession attachedSession]))
        [renewalAt 10, .expireLease ⟨1⟩ { epoch := ⟨1⟩, boot := ⟨1⟩ } [], renewalAt 10] ∧
      ¬ Follows (Operation.step Float) (Operation.ExtendsTerm Float termLease)
        ((Operation.registerLease termLease).step Float
          (after (Operation.step Float) {} [.registerWorkerSession attachedSession]))
        [renewalAt 60] := by
  have hregistered : (Operation.registerLease termLease).Accepted Float
      (after (Operation.step Float) {} [.registerWorkerSession attachedSession]) := by
    decide +kernel
  refine ⟨(renewal_extends_iff Float _ termLease hregistered
    [renewalAt 10, .expireLease ⟨1⟩ { epoch := ⟨1⟩, boot := ⟨1⟩ } [], renewalAt 10]
    ⟨trivial, trivial, trivial, trivial⟩).mp ?_, fun h => ?_⟩
  · exact ⟨fun _ _ => rfl, trivial, fun _ _ => rfl, trivial⟩
  · have hstart := (renewal_extends_iff Float _ termLease hregistered [renewalAt 60]
      ⟨trivial, trivial⟩).mpr h
    have haccepted : (renewalAt 60).Accepted Float termHeld := by decide +kernel
    exact absurd (hstart.1 rfl (accepted_renewLease.mp haccepted)) (by decide)

/-! ## 3. The fence -/

/-- A lease that is on file stays there, with a fence no smaller. -/
def FenceKept (id : LeaseId) (d d' : Directory) : Prop :=
  ∀ l, d.leases.find id = some l →
    ∃ l', d'.leases.find id = some l' ∧ l.authority.fence ≤ l'.authority.fence

/-- If the call is an expiry of the lease by its holder, it carries a fence not below the stored
    one. -/
def Operation.KeepsFence (id : LeaseId) (op : Operation) (d : Directory) : Prop :=
  match op with
  | .expireLease id' env _ =>
      id' = id → ∀ l, d.leases.find id = some l → l.holder = env.boot →
        l.authority.fence ≤ env.fence
  | _ => True

section Fence

variable {F : Type} [ScoreArith F] {id : LeaseId}

theorem FenceKept.refl (d : Directory) : FenceKept id d d :=
  fun l hl => ⟨l, hl, UInt64.le_refl _⟩

theorem FenceKept.trans {d d' d'' : Directory} (h : FenceKept id d d') (h' : FenceKept id d' d'') :
    FenceKept id d d'' := by
  intro l hl
  obtain ⟨l', hl', hle⟩ := h l hl
  obtain ⟨l'', hl'', hle'⟩ := h' l' hl'
  exact ⟨l'', hl'', UInt64.le_trans hle hle'⟩

/-- **One call keeps the fence exactly when it is no expiry with a smaller one.** -/
theorem keepsFence_iff (op : Operation) (d : Directory) (hop : op.LeavesLease id d) :
    op.KeepsFence id d ↔ FenceKept id d (op.step F d) := by
  constructor
  · intro h l hl
    obtain ⟨l', hl', hmove⟩ := lease_step (F := F) hop hl
    refine ⟨l', hl', ?_⟩
    cases hmove with
    | renewed env now hrenewal greater => exact UInt64.le_of_lt (UInt64.not_le.mp greater)
    | expired env reason hexpiry holder =>
        subst hexpiry
        exact h rfl l hl holder
    | _ => exact UInt64.le_refl _
  · intro h
    cases op with
    | expireLease id' env reason =>
        intro hid l hl hholder
        subst hid
        have haccepted : (Operation.expireLease id' env reason).Accepted Float d :=
          accepted_expireLease.mpr ⟨l, hl, hholder⟩
        obtain ⟨l', hl', hle⟩ := h l hl
        have hbehind : (d.expireLease id' env reason).2.leases.find id' = some l' := hl'
        rw [expireLease_behind haccepted, find_leaseAt hl] at hbehind
        cases hbehind
        exact hle
    | _ => trivial

/-- **Along a run that does not register the lease again, its fence never decreases, and no
    renewal that succeeded is accepted again under its envelope, exactly when every expiry by the
    holder carries a fence not below the stored one.** -/
theorem renewed_once_iff (F : Type) [ScoreArith F] (d : Directory) (id : LeaseId)
    (ops : List Operation) (hops : Follows (Operation.step F) (Operation.LeavesLease id) d ops) :
    Follows (Operation.step F) (Operation.KeepsFence id) d ops ↔
      (∀ pre mid post, ops = pre ++ mid ++ post →
        FenceKept id (after (Operation.step F) d pre) (after (Operation.step F) d (pre ++ mid))) ∧
      ∀ pre env now mid now' post,
        ops = pre ++ .renewLease id env now :: (mid ++ .renewLease id env now' :: post) →
        (Operation.renewLease id env now).Accepted F (after (Operation.step F) d pre) →
        ¬ (Operation.renewLease id env now').Accepted F
          (after (Operation.step F) d (pre ++ .renewLease id env now :: mid)) := by
  rw [follows_congr (fun _ _ (_ : True) _ => trivial)
      (fun op s _ h => keepsFence_iff (F := F) op s h) ops d trivial hops,
    follows_iff_pairs FenceKept.refl fun _ _ _ => FenceKept.trans]
  refine ⟨fun h => ⟨h, ?_⟩, And.left⟩
  rintro pre env now mid now' post rfl haccepted hagain
  have hgranted : (Operation.renewLease id env now).Granted (after (Operation.step F) d pre) :=
    accepted_renewLease.mp haccepted
  obtain ⟨l, hl, -⟩ := accepted_renewLease.mp haccepted
  have hbehind : (after (Operation.step F) d (pre ++ [.renewLease id env now])).leases.find id =
      some (renewed env now l) := by
    rw [after_append]
    exact find_renewed hgranted hl
  obtain ⟨l', hl', hle⟩ := h (pre ++ [.renewLease id env now]) mid (.renewLease id env now' :: post)
    (by simp) _ hbehind
  obtain ⟨l'', hl'', -, -, hgreater, -⟩ := accepted_renewLease.mp hagain
  have hsame : l'' = l' := by
    rw [List.append_assoc, List.singleton_append] at hl'
    exact Option.some.inj (hl''.symm.trans hl')
  rw [hsame] at hgreater
  exact hgreater hle

end Fence

/-- A renewal, an expiry without a fence, and the renewal once more. -/
def renewedAgain : List Operation := [renewal, expiryOf ⟨1⟩, renewal]

/-- **The counterexample**: both are accepted, as the expiry sets the fence back. -/
theorem renewal_replayed :
    Reached Float leasedOnce leased ∧ renewal.Accepted Float leased ∧
      renewal.Accepted Float (after (Operation.step Float) leased [renewal, expiryOf ⟨1⟩]) ∧
      (visited (Operation.step Float) leased renewedAgain).map
          (fun d => d.leases.values.map (·.authority.fence)) = [[0], [1], [0], [1]] :=
  ⟨after_mem_visited _ _ _, by decide +kernel, by decide +kernel, by decide +kernel⟩

/-- The same with an expiry under the fence of the renewal. -/
def expiryUnderFence : Operation := .expireLease ⟨1⟩ { epoch := ⟨1⟩, boot := ⟨1⟩, fence := 1 } []

theorem renewed_once_leased :
    FenceKept ⟨1⟩ leased (after (Operation.step Float) leased [renewal, expiryUnderFence]) ∧
      ¬ renewal.Accepted Float
        (after (Operation.step Float) leased [renewal, expiryUnderFence]) ∧
      ¬ Follows (Operation.step Float) (Operation.KeepsFence ⟨1⟩) leased renewedAgain := by
  have hfirst : renewal.Accepted Float leased := by decide +kernel
  have hkeeps : Follows (Operation.step Float) (Operation.KeepsFence ⟨1⟩) leased
      [renewal, expiryUnderFence, renewal] := by
    refine ⟨trivial, fun _ l hl _ => ?_, trivial, trivial⟩
    have hfence : ((renewal.step Float leased).leases.find ⟨1⟩).map (·.authority.fence) =
        some 1 := by decide +kernel
    rw [hl] at hfence
    exact UInt64.le_of_eq (Option.some.inj hfence)
  obtain ⟨hkept, honce⟩ := (renewed_once_iff Float leased ⟨1⟩
    [renewal, expiryUnderFence, renewal] ⟨trivial, trivial, trivial, trivial⟩).mp hkeeps
  refine ⟨hkept [] [renewal, expiryUnderFence] [renewal] rfl,
    honce [] _ _ [expiryUnderFence] _ [] rfl hfirst, fun h => ?_⟩
  have hagain : renewal.Accepted Float
      (after (Operation.step Float) leased [renewal, expiryOf ⟨1⟩]) := by decide +kernel
  exact ((renewed_once_iff Float leased ⟨1⟩ renewedAgain
    ⟨trivial, trivial, trivial, trivial⟩).mp h).2 [] _ _ [expiryOf ⟨1⟩] _ [] rfl hfirst hagain

end CacheDirectory
