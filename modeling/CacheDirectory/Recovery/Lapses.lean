/-
  File:      CacheDirectory/Recovery/Lapses.lean
  Subject:   WHETHER A LAPSED LEASE TAKES ITS COPIES OUT OF QUERIES.

  A record carries a copy of its lease, and the last hard filter reads that copy. `expire_lease`
  and `revoke_lease` write the table and no record. So a query sees a lease lapse only where the
  copy in the record says EXPIRED already.

  * `Unlapsed` -- the table does not have the lease of the record as EXPIRED or REVOKED;
  * `ends_iff` -- what an accepted expiry or revocation takes out of queries: nothing;
  * `keepsUnlapsed_iff` -- one call;
  * `lapsed_never_found_iff` -- along runs, for all candidates of all queries.
-/
import CacheDirectory.Recovery.Serving
import CacheDirectory.Invariants.Leases

namespace CacheDirectory

open Library Directory

/-! ## 1. The table and the copies -/

/-- EXPIRED or REVOKED. -/
def Lapsed (s : LeaseState) : Prop := s = .expired ∨ s = .revoked

/-- The record is held under the lease. -/
def HeldUnder (id : LeaseId) (r : DirectoryRecord) : Prop :=
  r.hasLease = true ∧ r.lease.leaseId = id

/-- If the record is held under a lease, the table does not have that as lapsed. -/
def Unlapsed (d : Directory) (r : DirectoryRecord) : Prop :=
  r.hasLease = true → ∀ l, d.leases.find r.lease.leaseId = some l → ¬ Lapsed l.state

/-- No servable record is held under the lease. -/
def Unheld (id : LeaseId) (d : Directory) : Prop :=
  ∀ r ∈ d.records, Servable r → ¬ HeldUnder id r

/-- The call leaves no servable record under a lapsed lease: an accepted registration of a lapsed
    lease, an accepted expiry and an accepted revocation find no servable record under it; the loss
    of a live boot finds no revivable record of the boot under a lapsed lease of another holder;
    and what any other call but recovery makes servable is under none. -/
def Operation.KeepsUnlapsed (F : Type) [ScoreArith F] (op : Operation) (d : Directory) : Prop :=
  match op with
  | .registerLease lease =>
      (Operation.registerLease lease).Accepted F d → Lapsed lease.state → Unheld lease.leaseId d
  | .expireLease id env reason =>
      (Operation.expireLease id env reason).Accepted F d → Unheld id d
  | .revokeLease id env reason =>
      (Operation.revokeLease id env reason).Accepted F d → Unheld id d
  | .onWorkerLoss b _ =>
      d.workerLive b = true → ∀ r ∈ d.records, r.workerBoot = b → Revivable r →
        r.hasLease = true → ∀ l, d.leases.find r.lease.leaseId = some l → l.holder ≠ b →
          ¬ Lapsed l.state
  | .recoverFromBuffer _ => True
  | op => op.Vouches (Unlapsed d) d

section Table

variable {d d' : Directory}

theorem plain_unlapsed (d : Directory) : Plain (Unlapsed d) :=
  ⟨fun _ _ _ => Iff.rfl, fun _ _ _ _ => Iff.rfl⟩

/-- Nothing but the table counts. -/
theorem unlapsed_congr (h : d'.leases = d.leases) : Unlapsed d' = Unlapsed d := by
  unfold Unlapsed
  rw [h]

/-- The loss of its boot leaves a record its lease. -/
theorem unlapsed_loseRecord {r : DirectoryRecord} : Unlapsed d (loseRecord r) ↔ Unlapsed d r := by
  unfold loseRecord
  split <;> exact Iff.rfl

/-- Editing leases in place without letting one lapse. -/
theorem unlapsed_adjust {p : LeaseDescriptor → Bool} {f : LeaseDescriptor → LeaseDescriptor}
    {hf : ∀ l, (f l).leaseId = l.leaseId} (hleases : d'.leases = d.leases.adjust p f hf)
    (hkeep : ∀ l, ¬ Lapsed (f l).state) {r : DirectoryRecord} (hr : Unlapsed d r) :
    Unlapsed d' r := by
  intro hheld
  rw [hleases]
  refine KeyedMap.forall_find_adjust.mpr fun l hl => ?_
  split
  · exact hkeep l
  · exact hr hheld l hl

theorem forall_find_leaseAt {id : LeaseId} {f : LeaseDescriptor → LeaseDescriptor}
    {hf : ∀ l, (f l).leaseId = l.leaseId} {k : LeaseId} {P : LeaseDescriptor → Prop} :
    (∀ l, (leaseAt d id f hf).leases.find k = some l → P l) ↔
      ∀ l, d.leases.find k = some l → P (if l.leaseId == id then f l else l) := by
  show (∀ l, (d.leases.adjust (fun l => l.leaseId == id) f hf).find k = some l → P l) ↔ _
  exact KeyedMap.forall_find_adjust

/-- **Ending a lease in the table leaves no servable record under a lapsed lease exactly when none
    was held under it**, since it changes no record. -/
theorem ends_iff {id : LeaseId} {f : LeaseDescriptor → LeaseDescriptor}
    {hf : ∀ l, (f l).leaseId = l.leaseId} {l : LeaseDescriptor} (hl : d.leases.find id = some l)
    (hends : ∀ l, Lapsed (f l).state) (hd : OnlyServed (Unlapsed d) d) :
    Unheld id d ↔ OnlyServed (Unlapsed (leaseAt d id f hf)) (leaseAt d id f hf) := by
  refine forall₂_congr fun r hr => forall_congr' fun hserved => ?_
  constructor
  · intro hfree hheld
    refine forall_find_leaseAt.mpr fun x hx => ?_
    have hkey : x.leaseId = r.lease.leaseId := (KeyedMap.find_eq_some.mp hx).2
    split
    · next hid => exact absurd ⟨hheld, hkey.symm.trans (beq_iff_eq.mp hid)⟩ hfree
    · exact hd r hr hserved hheld x hx
  · intro h hunder
    obtain ⟨hheld, hid⟩ := hunder
    have hlapsed := h hheld (f l) (by rw [hid]; exact find_leaseAt hl)
    exact hlapsed (hends l)

end Table

/-! ## 2. One call -/

section Step

variable {F : Type} [ScoreArith F] {d : Directory}

theorem keepsUnlapsed_registerLease {lease : LeaseDescriptor} (hd : OnlyServed (Unlapsed d) d) :
    (Operation.registerLease lease).KeepsUnlapsed F d ↔
      OnlyServed (Unlapsed ((Operation.registerLease lease).step F d))
        ((Operation.registerLease lease).step F d) := by
  refine accepted_iff (P := fun t => OnlyServed (Unlapsed t) t) rfl (by simp) hd fun hacc => ?_
  have hbehind : (d.registerLease lease).2 = _ := (accepted_report_guarded hacc).2
  have hrecords : (d.registerLease lease).2.records = d.records := by
    rw [hbehind]
    rfl
  have hleases : (d.registerLease lease).2.leases = d.leases.put lease := by
    rw [hbehind]
    rfl
  show _ ↔ OnlyServed (Unlapsed (d.registerLease lease).2) (d.registerLease lease).2
  unfold OnlyServed Unlapsed
  rw [hrecords, hleases]
  constructor
  · intro hfree r hr hserved hheld
    refine (KeyedMap.forall_find_put (hd r hr hserved hheld)).mpr fun hkey hlapsed => ?_
    exact hfree hlapsed r hr hserved ⟨hheld, hkey.symm⟩
  · intro h hlapsed r hr hserved hunder
    obtain ⟨hheld, hid⟩ := hunder
    exact (KeyedMap.forall_find_put (hd r hr hserved hheld)).mp (h r hr hserved hheld) hid.symm
      hlapsed

theorem keepsUnlapsed_expireLease {id : LeaseId} {env : AuthorityEnvelope} {reason : Bytes}
    (hd : OnlyServed (Unlapsed d) d) :
    (Operation.expireLease id env reason).KeepsUnlapsed F d ↔
      OnlyServed (Unlapsed ((Operation.expireLease id env reason).step F d))
        ((Operation.expireLease id env reason).step F d) := by
  refine accepted_iff (P := fun t => OnlyServed (Unlapsed t) t) rfl (by simp) hd fun hacc => ?_
  obtain ⟨l, hl, _⟩ := accepted_expireLease.mp hacc
  show _ ↔ OnlyServed (Unlapsed (d.expireLease id env reason).2) (d.expireLease id env reason).2
  rw [expireLease_behind hacc]
  exact ends_iff hl (fun _ => .inl rfl) hd

theorem keepsUnlapsed_revokeLease {id : LeaseId} {env : AuthorityEnvelope} {reason : Bytes}
    (hd : OnlyServed (Unlapsed d) d) :
    (Operation.revokeLease id env reason).KeepsUnlapsed F d ↔
      OnlyServed (Unlapsed ((Operation.revokeLease id env reason).step F d))
        ((Operation.revokeLease id env reason).step F d) := by
  refine accepted_iff (P := fun t => OnlyServed (Unlapsed t) t) rfl (by simp) hd fun hacc => ?_
  obtain ⟨l, hl⟩ := accepted_revokeLease.mp hacc
  show _ ↔ OnlyServed (Unlapsed (d.revokeLease id env reason).2) (d.revokeLease id env reason).2
  rw [revokeLease_behind hacc]
  exact ends_iff hl (fun _ => .inr rfl) hd

/-- The loss of a boot demotes what it holds, and leaves the copies in its records. -/
theorem keepsUnlapsed_onWorkerLoss {b : WorkerBootId} {reason : Bytes}
    (hd : OnlyServed (Unlapsed d) d) :
    (Operation.onWorkerLoss b reason).KeepsUnlapsed F d ↔
      OnlyServed (Unlapsed ((Operation.onWorkerLoss b reason).step F d))
        ((Operation.onWorkerLoss b reason).step F d) := by
  show _ ↔ OnlyServed (Unlapsed (d.onWorkerLoss b reason).2) (d.onWorkerLoss b reason).2
  by_cases hlive : d.workerLive b = true
  · have hleases := leases_onWorkerLoss reason hlive
    unfold OnlyServed
    rw [records_onWorkerLoss, List.forall_mem_map]
    refine (imp_iff_right hlive).trans (forall₂_congr fun r hr => ?_)
    by_cases hboot : r.workerBoot = b
    · rw [lose_of_hit hlive hboot, servable_loseRecord, imp_iff_right hboot, unlapsed_loseRecord]
      unfold Unlapsed
      rw [hleases]
      refine imp_congr_right fun _ => imp_congr_right fun _ => ?_
      refine Iff.trans ?_ KeyedMap.forall_find_adjust.symm
      refine forall₂_congr fun l _ => ?_
      by_cases hholder : l.holder = b
      · rw [if_pos (beq_iff_eq.mpr hholder)]
        exact iff_of_true (fun h => absurd hholder h) fun h => by rcases h with h | h <;> cases h
      · rw [if_neg (fun h => hholder (beq_iff_eq.mp h))]
        exact imp_iff_right hholder
    · have hkeep : lose d b r = r := if_neg (by simp [hboot])
      rw [hkeep]
      refine iff_of_true (fun h => absurd h hboot) fun hserved => ?_
      refine unlapsed_adjust hleases (fun l h => ?_) (hd r hr hserved)
      rcases h with h | h <;> cases h
  · rw [onWorkerLoss_idle hlive]
    exact iff_of_true (fun h => absurd h hlive) hd

theorem unlapsed_renewLease {id : LeaseId} {env : AuthorityEnvelope} {now : TimestampNs}
    (hd : OnlyServed (Unlapsed d) d) :
    OnlyServed (Unlapsed ((Operation.renewLease id env now).step F d))
      ((Operation.renewLease id env now).step F d) := by
  refine renewLease_keeps (P := fun t => OnlyServed (Unlapsed t) t) hd fun r hr hserved => ?_
  have hold : Unlapsed d r := hd r hr hserved
  intro hheld
  refine forall_find_leaseAt.mpr fun l hl => ?_
  split
  · exact fun h => by rcases h with h | h <;> cases h
  · exact hold hheld l hl

/-- The calls that write no lease. -/
theorem keepsUnlapsed_vouches {op : Operation} (hleases : (op.step F d).leases = d.leases)
    (hcond : op.KeepsUnlapsed F d ↔ op.Vouches (Unlapsed d) d) (hd : OnlyServed (Unlapsed d) d) :
    op.KeepsUnlapsed F d ↔ OnlyServed (Unlapsed (op.step F d)) (op.step F d) := by
  rw [hcond, unlapsed_congr hleases]
  exact vouches_iff (plain_unlapsed d) op d hd

/-- **A call leaves no servable record under a lapsed lease exactly when it keeps it so.** -/
theorem keepsUnlapsed_iff (op : Operation) (d : Directory) (hd : OnlyServed (Unlapsed d) d) :
    op.KeepsUnlapsed F d ↔ OnlyServed (Unlapsed (op.step F d)) (op.step F d) := by
  cases op with
  | registerLease lease => exact keepsUnlapsed_registerLease hd
  | renewLease id env now =>
      exact iff_of_true (fun _ _ _ hev => by cases hev) (unlapsed_renewLease hd)
  | expireLease id env reason => exact keepsUnlapsed_expireLease hd
  | revokeLease id env reason => exact keepsUnlapsed_revokeLease hd
  | onWorkerLoss b reason => exact keepsUnlapsed_onWorkerLoss hd
  | recoverFromBuffer buf =>
      refine iff_of_true trivial (recover_keeps F (P := fun t => OnlyServed (Unlapsed t) t) hd ?_)
      intro s _ _ r _ _ _ l hl hlapsed
      -- recovery demotes the whole table
      have hstate := state_of_install (KeyedMap.find_eq_some.mp hl).1
      rw [hstate] at hlapsed
      rcases hlapsed with h | h <;> cases h
  | registerEntry record clk =>
      exact keepsUnlapsed_vouches
        (commit_keeps (P := fun t => t.leases = d.leases) rfl fun _ => rfl) Iff.rfl hd
  | _ => exact keepsUnlapsed_vouches ((restKept_step F rfl d).leases rfl) Iff.rfl hd

end Step

/-! ## 3. Runs -/

/-- The call ends the lease in the table. -/
def Operation.Ends (id : LeaseId) : Operation → Prop
  | .expireLease id' _ _ => id' = id
  | .revokeLease id' _ _ => id' = id
  | _ => False

/-- Expiry and revocation write no record, and need no index. -/
theorem ends_keeps {F : Type} [ScoreArith F] {id : LeaseId} {op : Operation} (h : op.Ends id)
    (d : Directory) :
    (op.step F d).records = d.records ∧ (d.IndexFits → (op.step F d).IndexFits) := by
  cases op with
  | expireLease id' env reason =>
      exact expireLease_keeps (P := fun t => t.records = d.records ∧ (d.IndexFits → t.IndexFits))
        ⟨rfl, fun h => h⟩ ⟨rfl, fun h => h⟩
  | revokeLease id' env reason =>
      exact revokeLease_keeps (P := fun t => t.records = d.records ∧ (d.IndexFits → t.IndexFits))
        ⟨rfl, fun h => h⟩ ⟨rfl, fun h => h⟩
  | _ => cases h

/-- **Queries return no copy under a lapsed lease**, in every state reached, exactly along the runs
    whose calls all leave none servable; and an expiry or a revocation takes the copies held under
    the lease out of queries exactly if none was servable before it. -/
theorem lapsed_never_found_iff (F : Type) [ScoreArith F] (ops : List Operation) :
    (Follows (Operation.step F) (Operation.KeepsUnlapsed F) {} ops ↔
        ∀ d, Reached F ops d → ∀ (order : Enumeration Nat) (q : DirectoryQuery)
          (res : QueryResult F), (d.query order q).1 = .ok res →
            ∀ c ∈ res.candidates, c.record.hasLease = true →
              ∀ l, d.leases.find c.record.lease.leaseId = some l →
                l.state ≠ .expired ∧ l.state ≠ .revoked) ∧
      ∀ d, Reached F ops d → ∀ (op : Operation) (id : LeaseId), op.Ends id →
        ((∀ (order : Enumeration Nat) (q : DirectoryQuery) (res : QueryResult F),
            ((op.step F d).query order q).1 = .ok res →
              ∀ c ∈ res.candidates, ¬ HeldUnder id c.record) ↔
          ∀ r ∈ d.records, Servable r → ¬ HeldUnder id r) := by
  constructor
  · rw [follows_iff_visited keepsUnlapsed_iff ops {} fun _ h => (List.not_mem_nil h).elim]
    refine forall₂_congr fun d hd => (onlyServed_iff F (indexFits_reached hd)).trans ?_
    simp only [Unlapsed, Lapsed, not_or, ne_eq]
  · intro d hd op id hends
    obtain ⟨hrecords, hfits⟩ := ends_keeps (F := F) hends d
    have hfound := onlyServed_iff F (hfits (indexFits_reached hd)) (P := fun r => ¬ HeldUnder id r)
    rw [← hfound]
    unfold OnlyServed
    rw [hrecords]

/-- A copy registered under the ACTIVE lease of its worker. -/
def copyUnderLease : List Operation :=
  leasedOnce ++ [.registerEntry { copyRecord ⟨1⟩ ⟨1⟩ with
    hasLease := true
    lease := { leaseId := ⟨1⟩, holder := ⟨1⟩, state := .active } } fun _ => 1]

/-- The state behind that and one more call. -/
def behindLease (op : Operation) : Directory :=
  after (Operation.step Float) {} (copyUnderLease ++ [op])

/-- The query selects a copy under a lease the table has in the state. -/
def SelectsUnder (s : LeaseState) (d : Directory) : Prop :=
  Selects Float anyCopy d fun r =>
    r.hasLease = true ∧ (d.leases.find r.lease.leaseId).map (·.state) = some s

/-- **The counterexample**: a copy is selected behind the revocation of its lease, and behind its
    expiry. -/
theorem lapsed_copy_found :
    Reached Float (copyUnderLease ++ [revocationOf ⟨1⟩]) (behindLease (revocationOf ⟨1⟩)) ∧
      SelectsUnder .revoked (behindLease (revocationOf ⟨1⟩)) ∧
      Reached Float (copyUnderLease ++ [expiryOf ⟨1⟩]) (behindLease (expiryOf ⟨1⟩)) ∧
      SelectsUnder .expired (behindLease (expiryOf ⟨1⟩)) := by
  have hrevoked : Reached Float (copyUnderLease ++ [revocationOf ⟨1⟩])
      (behindLease (revocationOf ⟨1⟩)) := after_mem_visited _ _ _
  have hexpired : Reached Float (copyUnderLease ++ [expiryOf ⟨1⟩])
      (behindLease (expiryOf ⟨1⟩)) := after_mem_visited _ _ _
  exact ⟨hrevoked, selects_of_all Float (indexFits_reached hrevoked) (by decide +kernel)
      (by decide +kernel), hexpired,
    selects_of_all Float (indexFits_reached hexpired) (by decide +kernel) (by decide +kernel)⟩

end CacheDirectory
