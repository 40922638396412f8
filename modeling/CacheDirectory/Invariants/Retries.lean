/-
  File:      CacheDirectory/Invariants/Retries.lean
  Subject:   WHETHER A CALL MAY BE MADE AGAIN.

  A client that gets no answer makes its call again, and the directory reads its clock again. Most
  calls assign what they are given, or take away what is there; made again they assign the same, or
  find nothing left, or are refused. A tombstone is appended each time it is accepted, and an id is
  never handed out again.

  * `reread`, `repeatable` -- the call with other clock readings, and the calls that may be retried;
  * `absorbed_step` -- such a call made right behind itself leaves what one of the two leaves;
  * `not_absorbed` -- an accepted call of another kind does not;
  * `retries_harmless` -- along runs.
-/
import CacheDirectory.Invariants.History
import CacheDirectory.Invariants.RecordIds
import CacheDirectory.Invariants.Revocation
import CacheDirectory.Invariants.Sessions
import CacheDirectory.Queries.Transparency

namespace CacheDirectory

open Library Directory

/-! ## 1. Calls made again -/

/-- The call when the clock reads `now`, and `clk` over the records it goes through. -/
def Operation.reread (now : TimestampNs) (clk : Nat → TimestampNs) : Operation → Operation
  | .registerEntry record _ => .registerEntry record clk
  | .updateHealth id h env _ => .updateHealth id h env now
  | .updateFreshness id f env _ => .updateFreshness id f env now
  | .updateReachability id reach env _ => .updateReachability id reach env now
  | .updateIntegrity id integ env _ => .updateIntegrity id integ env now
  | .updateLifecycle id s env _ => .updateLifecycle id s env now
  | .renewLease id env _ => .renewLease id env now
  | .invalidateState s g env reason _ => .invalidateState s g env reason clk
  | .invalidateLocation loc env reason _ => .invalidateLocation loc env reason clk
  | .invalidateReplica rep env reason _ => .invalidateReplica rep env reason clk
  | .invalidateCache c env reason _ => .invalidateCache c env reason clk
  | .invalidateWorkerBoot b env reason _ => .invalidateWorkerBoot b env reason clk
  | op => op

def Operation.repeatable : Operation → Bool
  | .tombstone _ => false
  | .nextObjectId => false
  | _ => true

/-- The second is the first, made again later. -/
def Again (op again : Operation) : Prop :=
  op.repeatable = true ∧ ∃ now clk, again = op.reread now clk

/-- Made again the call leaves what it has left already, or what it leaves when it is made only
    then. -/
def Absorbed (F : Type) [ScoreArith F] (op again : Operation) (d : Directory) : Prop :=
  (again.step F (op.step F d)).content = (op.step F d).content ∨
    (again.step F (op.step F d)).content = (again.step F d).content

/-! ## 2. One call -/

section Absorbed

variable {F : Type} [ScoreArith F] {d : Directory} {op again : Operation}

/-- A call that had no effect is made for the first time. -/
theorem absorbed_of_same (h : op.step F d = d) : Absorbed F op again d := .inr (by rw [h])

/-- A call that fails or makes an edit, and whose edit made again finds nothing to do. -/
theorem absorbed_edit (e e' : Directory → Directory)
    (hop : ∀ d, op.step F d = d ∨ op.step F d = e d)
    (hagain : ∀ d, again.step F d = d ∨ again.step F d = e' d)
    (hee : (e' (e d)).content = (e d).content) : Absorbed F op again d := by
  rcases hop d with hsame | hdone
  · exact absorbed_of_same hsame
  · refine .inl ?_
    rw [hdone]
    rcases hagain (e d) with hsame | hnew
    · rw [hsame]
    · rw [hnew]
      exact hee

/-- The same for a call that checks everything first. -/
theorem absorbed_guarded {α α' : Type} {checks checks' : Directory → List (Bool × Failure)}
    {act : Directory → α × Directory} {act' : Directory → α' × Directory}
    (hop : ∀ d, op.run F d = Operation.report (guarded (checks d) d (act d)))
    (hagain : ∀ d, again.run F d = Operation.report (guarded (checks' d) d (act' d)))
    (hact : (act' (act d).2).2.content = (act d).2.content) : Absorbed F op again d := by
  have hends {β : Type} (cs : List (Bool × Failure)) (d : Directory) (x : β × Directory) :
      (guarded cs d x).2 = d ∨ (guarded cs d x).2 = x.2 := by
    rcases guarded_cases cs d x with ⟨f, hend⟩ | ⟨_, hend⟩
    · exact .inl (congrArg Prod.snd hend)
    · exact .inr (congrArg Prod.snd hend)
  refine absorbed_edit (fun d => (act d).2) (fun d => (act' d).2) (fun d => ?_) (fun d => ?_) hact
  · rw [show op.step F d = _ from congrArg Prod.snd (hop d)]
    exact hends (checks d) d (act d)
  · rw [show again.step F d = _ from congrArg Prod.snd (hagain d)]
    exact hends (checks' d) d (act' d)

/-- An invalidation leaves no current record it would select. -/
theorem invalidateRecords_again (sel : DirectoryRecord → Bool)
    (also : DirectoryRecord → DirectoryRecord) (halso : ∀ r, (also r).current = r.current)
    (clk clk' : Nat → TimestampNs) (l : List DirectoryRecord) :
    invalidateRecords sel also clk' (invalidateRecords sel also clk l) =
      invalidateRecords sel also clk l := by
  refine mapIdx_again (fun i r => ?_) l
  by_cases hdue : (sel r && r.current) = true
  · rw [if_pos hdue, if_neg (by simp [halso])]
  · rw [if_neg hdue, if_neg hdue]

theorem content_records_again {l l' : List DirectoryRecord} (h : l' = l) :
    Directory.content { d with records := l' } = Directory.content { d with records := l } := by
  rw [h]

theorem content_located_again {l l' : List DirectoryRecord}
    {m m' : KeyedMap (fun l : LocationDescriptor => l.locationId)} (hl : l' = l) (hm : m' = m) :
    Directory.content { d with records := l', locations := m' } =
      Directory.content { d with records := l, locations := m } := by
  rw [hl, hm]

theorem content_cached_again {l l' : List DirectoryRecord}
    {m m' : KeyedMap (fun c : CacheDescriptor => c.cacheId)} (hl : l' = l) (hm : m' = m) :
    Directory.content { d with records := l', caches := m' } =
      Directory.content { d with records := l, caches := m } := by
  rw [hl, hm]

theorem absorbed_invalidation {env : AuthorityEnvelope} {affected affected' : Directory → UInt32}
    {message message' : Directory → Bytes} {act act' : Directory → Directory}
    (hop : ∀ d, op.run F d =
      Operation.report (d.invalidateWith env (affected d) (message d) act))
    (hagain : ∀ d, again.run F d =
      Operation.report (d.invalidateWith env (affected' d) (message' d) act'))
    (hact : ∀ a, (act' { act d with
        accounting := a
        indexesDirty := true }).content = (act d).content) : Absorbed F op again d :=
  absorbed_guarded hop hagain (hact _)

/-- A cache is assigned what it holds already. -/
theorem absorbed_updateCache {write : CacheDescriptor → CacheDescriptor}
    {hwrite : ∀ c, (write c).cacheId = c.cacheId} {id : CacheId} {env : AuthorityEnvelope}
    (hop : ∀ d, op.run F d = Operation.report (updateCache write hwrite id env d))
    (hff : ∀ c, fencedCache write env (fencedCache write env c) = fencedCache write env c) :
    Absorbed F op op d := by
  let edit (d : Directory) : Directory := Directory.recomputeAccounting { d with
    caches := d.caches.adjust (fun c => c.cacheId == id) (fencedCache write env) hwrite
    accounting := updated d.accounting
    indexesDirty := true }
  have hstep (d : Directory) : op.step F d = d ∨ op.step F d = edit d := by
    rw [show op.step F d = _ from congrArg Prod.snd (hop d)]
    rcases @updateCache_cases write hwrite id env d with ⟨f, hend⟩ | ⟨c, _, _, hend⟩
    · exact .inl (congrArg Prod.snd hend)
    · exact .inr (congrArg Prod.snd hend)
  have hcaches := KeyedMap.adjust_adjust d.caches (p := fun c => c.cacheId == id)
    (f := fencedCache write env) hwrite hff
  refine absorbed_edit edit edit hstep hstep ?_
  show Directory.content { d with
    caches := (d.caches.adjust (fun c => c.cacheId == id) (fencedCache write env) hwrite).adjust
      (fun c => c.cacheId == id) (fencedCache write env) hwrite } = _
  rw [hcaches]
  rfl

/-- So is a lease. -/
theorem content_leaseAt_again (id : LeaseId) (f : LeaseDescriptor → LeaseDescriptor)
    (hf : ∀ l, (f l).leaseId = l.leaseId) (hff : ∀ l, f (f l) = f l) (d : Directory) :
    (leaseAt (leaseAt d id f hf) id f hf).content = (leaseAt d id f hf).content := by
  have hleases : (leaseAt d id f hf).leases.adjust (fun l => l.leaseId == id) f hf =
      (leaseAt d id f hf).leases := KeyedMap.adjust_adjust _ hf hff
  show Directory.content { leaseAt d id f hf with
    leases := (leaseAt d id f hf).leases.adjust (fun l => l.leaseId == id) f hf } = _
  rw [hleases]

theorem absorbed_leaseAt (id : LeaseId) (f : LeaseDescriptor → LeaseDescriptor)
    (hf : ∀ l, (f l).leaseId = l.leaseId) (hff : ∀ l, f (f l) = f l)
    (hop : ∀ d, op.step F d = d ∨ op.step F d = leaseAt d id f hf) : Absorbed F op op d :=
  absorbed_edit (leaseAt · id f hf) (leaseAt · id f hf) hop hop
    (content_leaseAt_again id f hf hff d)

theorem absorbed_expireLease {id : LeaseId} {env : AuthorityEnvelope} {reason : Bytes} :
    Absorbed F (.expireLease id env reason) (.expireLease id env reason) d := by
  refine absorbed_leaseAt id (fun l => { l with
    state := .expired
    authority := { l.authority with fence := env.fence } }) (fun _ => rfl) (fun _ => rfl)
    fun d => ?_
  rcases @expireLease_cases id env d reason with ⟨f, hend⟩ | ⟨l, _, _, hend⟩
  · exact .inl (congrArg Prod.snd hend)
  · exact .inr (congrArg Prod.snd hend)

theorem absorbed_revokeLease {id : LeaseId} {env : AuthorityEnvelope} {reason : Bytes} :
    Absorbed F (.revokeLease id env reason) (.revokeLease id env reason) d := by
  refine absorbed_leaseAt id (fun l => { l with state := .revoked }) (fun _ => rfl)
    (fun _ => rfl) fun d => ?_
  rcases @revokeLease_cases id env d reason with ⟨f, hend⟩ | ⟨l, _, hend⟩
  · exact .inl (congrArg Prod.snd hend)
  · exact .inr (congrArg Prod.snd hend)

/-- A renewal under a fence that is not above the lease's. -/
theorem renewLease_fenced {id : LeaseId} {env : AuthorityEnvelope} {l : LeaseDescriptor}
    (now : TimestampNs) (hl : d.leases.find id = some l) (hfence : env.fence ≤ l.authority.fence) :
    (d.renewLease id env now).2 = d := by
  rcases @renewLease_cases id env d now with ⟨f, hend⟩ | ⟨l', hl', ⟨_, _, hnew, _⟩, _⟩
  · rw [hend]
  · cases hl.symm.trans hl'
    exact absurd hfence hnew

/-- A renewal leaves its own fence, behind which it is refused. -/
theorem absorbed_renewLease {id : LeaseId} {env : AuthorityEnvelope} {now now' : TimestampNs} :
    Absorbed F (.renewLease id env now) (.renewLease id env now') d := by
  have hstep (now : TimestampNs) (d : Directory) : (Operation.renewLease id env now).step F d =
      (d.renewLease id env now).2 := rfl
  rcases @renewLease_cases id env d now with ⟨f, hend⟩ | ⟨l, hl, _, hend⟩
  · exact absorbed_of_same (by rw [hstep, hend])
  · refine .inl (congrArg Directory.content ?_)
    rw [hstep, hstep, hend]
    exact renewLease_fenced now' (find_leaseAt hl) (UInt64.le_refl env.fence)

/-- The boot is lost already. -/
theorem absorbed_onWorkerLoss {boot : WorkerBootId} {reason : Bytes} :
    Absorbed F (.onWorkerLoss boot reason) (.onWorkerLoss boot reason) d := by
  refine .inl (congrArg Directory.content ?_)
  show ((d.onWorkerLoss boot reason).2.onWorkerLoss boot reason).2 = (d.onWorkerLoss boot reason).2
  exact onWorkerLoss_idle fun hlive => ((workerLive_lost boot reason).mp hlive).2 rfl

/-- The copy has a current record now, behind which the registration is refused. -/
theorem absorbed_registerEntry {record : DirectoryRecord} {clk clk' : Nat → TimestampNs} :
    Absorbed F (.registerEntry record clk) (.registerEntry record clk') d := by
  by_cases haccepted : (Operation.registerEntry record clk).Accepted F d
  · have hcheck := accepted_registerEntry.mp haccepted
    have hput : d.stamped record clk ∈ ((Operation.registerEntry record clk).step F d).records := by
      show _ ∈ (d.registerEntry record clk).2.records
      rw [records_registerEntry record clk hcheck]
      exact List.mem_append_right _ List.mem_cons_self
    have hrefused : (Operation.registerEntry record clk').Refused F
        ((Operation.registerEntry record clk).step F d) := refused_of_current clk' hput rfl rfl
    exact .inl (congrArg Directory.content hrefused.2)
  · exact absorbed_of_same (rejected_step rfl (by simp) haccepted)

end Absorbed

/-! ## 3. Updates of a record -/

section Records

variable {F : Type} [ScoreArith F] {d e : Directory} {id : DirectoryRecordId}
  {env : AuthorityEnvelope} {now now' : TimestampNs}

/-- The derived lifecycle is derived again. -/
theorem deriveLifecycle_derived (r : DirectoryRecord) :
    deriveLifecycle (restamped (deriveLifecycle r) env now r) = deriveLifecycle r := by
  unfold deriveLifecycle restamped
  grind

/-- `e` is `d` with one record assigned, as far as the content goes. -/
structure Assigned (d e : Directory) (i : Fin d.records.length) (r : DirectoryRecord) : Prop where
  recordId : r.recordId = (d.records.get i).recordId
  content : e.content = Directory.content { d with records := d.records.set i r }

namespace Assigned

variable {i : Fin d.records.length} {r : DirectoryRecord}

theorem records (h : Assigned d e i r) : e.records = d.records.set i r :=
  congrArg (·.records) h.content

/-- A search finds the record where it was. -/
theorem found_again (h : Assigned d e i r) (hi : d.findRecordIndex id = some i)
    {j : Fin e.records.length} (hj : e.findRecordIndex id = some j) :
    j.val = i.val ∧ e.records.get j = r := by
  refine findFinIdx?_set hi ?_ h.records hj
  rw [h.recordId, recordId_found hi]
  exact beq_self_eq_true id

/-- Assigning it once more, only the last assignment counts. -/
theorem assigned_again (h : Assigned d e i r) {j : Fin e.records.length} (hij : j.val = i.val)
    (x : DirectoryRecord) : Directory.content { e with records := e.records.set j x } =
      Directory.content { d with records := d.records.set i x } := by
  have hrecords : e.records.set j x = d.records.set i x := by
    rw [hij, h.records, List.set_set]
  rw [hrecords]
  exact congrArg (fun c : Directory => { c with records := d.records.set i x }) h.content

end Assigned

theorem assigned_storeAt {i : Fin d.records.length} {r : DirectoryRecord}
    (h : r.recordId = (d.records.get i).recordId) : Assigned d (storeAt d i r) i r := ⟨h, rfl⟩

theorem absorbed_updateLifecycle {s : LifecycleState} :
    Absorbed F (.updateLifecycle id s env now) (.updateLifecycle id s env now') d := by
  have hstep (now : TimestampNs) (d : Directory) :
      (Operation.updateLifecycle id s env now).step F d =
        (d.updateLifecycle id s env now).2 := rfl
  rcases @updateLifecycle_cases id env now d s with ⟨f, hend⟩ | ⟨i, r, hi, rfl, hcan, hend⟩
  · exact absorbed_of_same (by rw [hstep, hend])
  · have hassigned := assigned_storeAt (d := d) (i := i)
      (r := restamped s env now (d.records.get i)) rfl
    have hlast : (d.updateLifecycle id s env now').2 =
        storeAt d i (restamped s env now' (d.records.get i)) := updateLifecycle_done hi hcan
    unfold Absorbed
    rw [hstep, hstep, hstep, hend, hlast]
    dsimp only
    generalize storeAt d i (restamped s env now (d.records.get i)) = e at hassigned ⊢
    rcases @updateLifecycle_cases id env now' e s with ⟨f, hend'⟩ | ⟨j, r, hj, rfl, _, hend'⟩
    · exact .inl (by rw [hend'])
    · obtain ⟨hij, hget⟩ := hassigned.found_again hi.found hj.found
      rw [hend', hget]
      exact .inr (hassigned.assigned_again hij _)

/-- **An evidence update made again**: it finds its evidence on file, and derives the lifecycle it
    has derived. -/
theorem absorbed_updateEvidence (op : TimestampNs → Operation)
    (write : DirectoryRecord → DirectoryRecord)
    (hop : ∀ now d, (op now).step F d = (updateEvidence write id env now d).2)
    (hwrite : ∀ r, write (write r) = write r) (hid : ∀ r, (write r).recordId = r.recordId)
    (hlabel : ∀ r, (write r).lifecycle = r.lifecycle)
    (hstamp : ∀ r s now, write (restamped s env now r) = restamped s env now (write r)) :
    Absorbed F (op now) (op now') d := by
  rcases @updateEvidence_cases id env now d write with
    ⟨f, hend, _⟩ | ⟨i, hi, hcan, hend⟩ | ⟨i, r, hi, rfl, hcan, hend⟩
  · exact absorbed_of_same (by rw [hop, hend])
  · -- written late: the record is frozen and stays so, and is written late again
    refine .inl ?_
    rw [hop, hop, hend]
    dsimp only
    have hassigned : Assigned d { d with records := d.records.set i (write (d.records.get i)) } i
        (write (d.records.get i)) := ⟨hid _, rfl⟩
    generalize { d with records := d.records.set i (write (d.records.get i)) } = e
      at hassigned ⊢
    rcases @updateEvidence_cases id env now' e write with
      ⟨f, hend', _⟩ | ⟨j, hj, _, hend'⟩ | ⟨j, r, hj, rfl, hcan', _⟩
    · rw [hend']
    · obtain ⟨hij, hget⟩ := hassigned.found_again hi.found hj.found
      rw [hend', hget, hwrite]
      exact (hassigned.assigned_again hij _).trans hassigned.content.symm
    · obtain ⟨_, hget⟩ := hassigned.found_again hi.found hj.found
      have hfrozen := (canLifecycle_derived _ _).mp hcan
      rw [hget, hlabel] at hcan'
      exact absurd (((canLifecycle_derived _ _).mpr hfrozen).symm.trans hcan') Bool.false_ne_true
  · have hfree : ¬ Frozen (d.records.get i) := by
      intro hfrozen
      have hno := (canLifecycle_derived _ (write (d.records.get i))).mpr hfrozen
      exact absurd (hno.symm.trans hcan) Bool.false_ne_true
    have hlast : (updateEvidence write id env now' d).2 =
        storeAt d i (restamped (deriveLifecycle (write (d.records.get i))) env now'
          (write (d.records.get i))) := updateEvidence_done hi hfree
    have hassigned := assigned_storeAt (d := d) (i := i)
      (r := restamped (deriveLifecycle (write (d.records.get i))) env now
        (write (d.records.get i))) (hid _)
    unfold Absorbed
    rw [hop, hop, hop, hend, hlast]
    dsimp only
    generalize storeAt d i _ = e at hassigned ⊢
    rcases @updateEvidence_cases id env now' e write with
      ⟨f, hend', _⟩ | ⟨j, hj, _, hend'⟩ | ⟨j, r, hj, rfl, _, hend'⟩
    · exact .inl (by rw [hend'])
    · obtain ⟨hij, hget⟩ := hassigned.found_again hi.found hj.found
      rw [hend', hget, hstamp, hwrite]
      exact .inl ((hassigned.assigned_again hij _).trans hassigned.content.symm)
    · obtain ⟨hij, hget⟩ := hassigned.found_again hi.found hj.found
      rw [hend', hget, hstamp, hwrite, deriveLifecycle_derived]
      exact .inr (hassigned.assigned_again hij _)

end Records

/-! ## 4. Every call -/

section Calls

variable {F : Type} [ScoreArith F]

theorem content_install_again (s : Snapshot) (d : Directory) :
    ((d.install s).install s).content = (d.install s).content := rfl

theorem absorbed_recover {buf : Bytes} {d : Directory} :
    Absorbed F (.recoverFromBuffer buf) (.recoverFromBuffer buf) d := by
  rcases step_recoverFromBuffer F buf d with hsame | ⟨s, hparse, _, hstep⟩
  · exact absorbed_of_same hsame
  · refine .inl ?_
    rw [hstep]
    refine recover_keeps F (P := fun e : Directory => e.content = (d.install s).content) rfl ?_
    intro s' hparse' _
    cases hparse.symm.trans hparse'
    exact content_install_again s d

/-- **A call that may be made again** right behind itself, whatever the clock reads then. -/
theorem absorbed_step {op again : Operation} (h : Again op again) (d : Directory) :
    Absorbed F op again d := by
  obtain ⟨hop, now', clk', rfl⟩ := h
  cases op with
  | tombstone t => cases hop
  | nextObjectId => cases hop
  | registerWorkerSession session =>
      refine absorbed_guarded (fun _ => rfl) (fun _ => rfl) ?_
      show Directory.content { d with workers := (d.workers.put _).put _ } =
        Directory.content { d with workers := d.workers.put _ }
      rw [KeyedMap.put_put]
  | onWorkerLoss boot reason => exact absorbed_onWorkerLoss
  | registerCache cache =>
      refine absorbed_guarded (fun _ => rfl) (fun _ => rfl) ?_
      show Directory.content { d with caches := (d.caches.put cache).put cache } =
        Directory.content { d with caches := d.caches.put cache }
      rw [KeyedMap.put_put]
  | registerLocation loc =>
      refine absorbed_guarded (fun _ => rfl) (fun _ => rfl) ?_
      show Directory.content { d with locations := (d.locations.put loc).put loc } =
        Directory.content { d with locations := d.locations.put loc }
      rw [KeyedMap.put_put]
  | registerReplica replica =>
      refine absorbed_guarded (fun _ => rfl) (fun _ => rfl) ?_
      show Directory.content { d with replicas := (d.replicas.put replica).put replica } =
        Directory.content { d with replicas := d.replicas.put replica }
      rw [KeyedMap.put_put]
  | registerLease lease =>
      refine absorbed_guarded (fun _ => rfl) (fun _ => rfl) ?_
      show Directory.content { d with leases := (d.leases.put lease).put lease } =
        Directory.content { d with leases := d.leases.put lease }
      rw [KeyedMap.put_put]
  | registerEntry record clk => exact absorbed_registerEntry
  | updateHealth id h env now =>
      exact absorbed_updateEvidence (fun now => .updateHealth id h env now)
        (fun r => { r with health := h }) (fun _ _ => rfl) (fun _ => rfl) (fun _ => rfl)
        (fun _ => rfl) fun _ _ _ => rfl
  | updateFreshness id f env now =>
      exact absorbed_updateEvidence (fun now => .updateFreshness id f env now)
        (fun r => { r with freshness := f }) (fun _ _ => rfl) (fun _ => rfl) (fun _ => rfl)
        (fun _ => rfl) fun _ _ _ => rfl
  | updateReachability id reach env now =>
      exact absorbed_updateEvidence (fun now => .updateReachability id reach env now)
        (fun r => { r with reachability := reach }) (fun _ _ => rfl) (fun _ => rfl) (fun _ => rfl)
        (fun _ => rfl) fun _ _ _ => rfl
  | updateIntegrity id integ env now =>
      exact absorbed_updateEvidence (fun now => .updateIntegrity id integ env now)
        (fun r => { r with integrity := integ }) (fun _ _ => rfl) (fun _ => rfl) (fun _ => rfl)
        (fun _ => rfl) fun _ _ _ => rfl
  | updateLifecycle id s env now => exact absorbed_updateLifecycle
  | updateCacheHealth id h reach env => exact absorbed_updateCache (fun _ => rfl) fun _ => rfl
  | updateCacheCapacity id capacity free env =>
      exact absorbed_updateCache (fun _ => rfl) fun _ => rfl
  | renewLease id env now => exact absorbed_renewLease
  | expireLease id env reason => exact absorbed_expireLease
  | revokeLease id env reason => exact absorbed_revokeLease
  | invalidateState s g env reason clk =>
      exact absorbed_invalidation (fun _ => rfl) (fun _ => rfl) fun a => content_records_again
        (invalidateRecords_again (d.selectState s g env) id (fun _ => rfl) clk clk' d.records)
  | invalidateReplica rep env reason clk =>
      exact absorbed_invalidation (fun _ => rfl) (fun _ => rfl) fun a => content_records_again
        (invalidateRecords_again (fun r => r.replica == rep) id (fun _ => rfl) clk clk' d.records)
  | invalidateWorkerBoot b env reason clk =>
      exact absorbed_invalidation (fun _ => rfl) (fun _ => rfl) fun a => content_records_again
        (invalidateRecords_again (fun r => r.workerBoot == b)
          (fun r => { r with reachability := .unreachable }) (fun _ => rfl) clk clk' d.records)
  | invalidateLocation loc env reason clk =>
      refine absorbed_invalidation (fun _ => rfl) (fun _ => rfl) fun a => ?_
      have hrecords := invalidateRecords_again (fun r => r.location == loc)
        (fun r => { r with reachability := .unreachable }) (fun _ => rfl) clk clk' d.records
      exact content_located_again hrecords
        (d.locations.adjust_adjust (p := fun l => l.locationId == loc)
          (f := fun l => { l with reachability := .unreachable, freshness := .stale })
          (fun _ => rfl) fun _ => rfl)
  | invalidateCache c env reason clk =>
      refine absorbed_invalidation (fun _ => rfl) (fun _ => rfl) fun a => ?_
      have hrecords := invalidateRecords_again (fun r => r.cache == c) id (fun _ => rfl) clk clk'
        d.records
      exact content_cached_again hrecords
        (d.caches.adjust_adjust (p := fun cd => cd.cacheId == c)
          (f := fun cd => { cd with reachability := .unreachable, health := .unavailable })
          (fun _ => rfl) fun _ => rfl)
  | query order q => exact .inl (content_read rfl _)
  | setRankingPolicy p => exact .inl rfl
  | validateIndexes => exact .inl (content_read rfl _)
  | indexes => exact .inl (content_read rfl _)
  | recoverFromBuffer buf => exact absorbed_recover

/-- An accepted tombstone is accepted again, and stands there twice. -/
theorem tombstones_again {t : TombstoneRecord} {d : Directory}
    (h : (Operation.tombstone t).Accepted F d) :
    ((Operation.tombstone t).step F d).tombstones = d.tombstones ++ [t] ∧
      ((Operation.tombstone t).step F ((Operation.tombstone t).step F d)).tombstones =
        d.tombstones ++ [t] ++ [t] := by
  obtain ⟨hpass, hfirst⟩ := accepted_report_guarded h
  have hstep (d : Directory) : (Operation.tombstone t).step F d = (d.tombstone t).2 := rfl
  unfold tombstone at hstep
  rw [hstep, hstep, hfirst, guarded_of_none (by exact hpass)]
  exact ⟨rfl, rfl⟩

/-- **A call of another kind is not absorbed** when it is accepted. -/
theorem not_absorbed {op : Operation} (hop : op.repeatable = false) {d : Directory}
    (haccepted : op.Accepted F d) (now : TimestampNs) (clk : Nat → TimestampNs) :
    ¬ Absorbed F op (op.reread now clk) d := by
  cases op with
  | tombstone t =>
      obtain ⟨honce, htwice⟩ := tombstones_again haccepted
      have hlength : d.tombstones ++ [t] ++ [t] ≠ d.tombstones ++ [t] := by
        intro h
        simpa using congrArg List.length h
      rintro (h | h)
      all_goals exact hlength ((htwice.symm.trans (congrArg (·.tombstones) h)).trans honce)
  | nextObjectId =>
      have hcount : d.nextObj + 1 + 1 ≠ d.nextObj + 1 := by
        intro h
        exact absurd (add_eq_left.mp h) (by decide)
      rintro (h | h)
      all_goals exact hcount (congrArg (·.nextObj) h)
  | _ => cases hop

end Calls

/-! ## 5. Runs -/

/-- The view of a state goes by the view of the state before. -/
theorem content_step (F : Type) [ScoreArith F] (op : Operation) {d e : Directory}
    (h : d.content = e.content) : (op.step F d).content = (op.step F e).content := by
  by_cases hop : op = .validateIndexes
  · subst hop
    rw [content_read rfl d, content_read rfl e, h]
  · exact (blind_step F hop).state h

/-- **Retries are harmless.** Every call of a run is made once, or several times in a row with
    other clock readings if it may be repeated. What is stored in the end, and so what every query
    answers, is what a run leaves that makes each call once. An accepted call that may not be
    repeated leaves something else when it is. -/
theorem retries_harmless (F : Type) [ScoreArith F] :
    (∀ bursts : List (List Operation), (∀ b ∈ bursts, b ≠ [] ∧ b.Pairwise Again) →
      ∃ once, List.Forall₂ (fun op b => op ∈ b) once bursts ∧
        (after (Operation.step F) {} bursts.flatten).content =
          (after (Operation.step F) {} once).content ∧
        ∀ order order' q, ((after (Operation.step F) {} bursts.flatten).query (F := F) order q).1 =
          ((after (Operation.step F) {} once).query (F := F) order' q).1) ∧
      ∀ (op : Operation) (d : Directory), op.repeatable = false → op.Accepted F d →
        ∀ now clk, ¬ Absorbed F op (op.reread now clk) d := by
  refine ⟨fun bursts hbursts => ?_, fun op d hop haccepted => not_absorbed hop haccepted⟩
  obtain ⟨once, honce, hcontent⟩ := @seen_of_again Directory Operation Directory (Operation.step F)
    Directory.content Again (fun op _ _ => content_step F op) (fun _ _ d h => absorbed_step h d)
    bursts hbursts {} {} rfl
  refine ⟨once, honce, hcontent, fun order order' q => ?_⟩
  rw [(query_eq_scan F bursts.flatten _ order q (after_mem_visited _ _ _)).1,
    (query_eq_scan F once _ order' q (after_mem_visited _ _ _)).1, ← queryScan_content, hcontent,
    queryScan_content]

/-- The copy is registered, and the answer is lost; then it is reported degraded, three times. -/
def callsRetried : List (List Operation) :=
  oneCopy.map (fun op => [op]) ++
    [[.registerEntry (copyRecord ⟨1⟩ ⟨1⟩) fun _ => 1,
        .registerEntry (copyRecord ⟨1⟩ ⟨1⟩) fun _ => 2],
      [3, 4, 5].map fun now => .updateHealth ⟨1⟩ .degraded { epoch := ⟨1⟩, boot := ⟨1⟩ } now]

theorem retries_harmless_callsRetried :
    (∃ once, List.Forall₂ (fun op b => op ∈ b) once callsRetried ∧
      (after (Operation.step Float) {} callsRetried.flatten).content =
        (after (Operation.step Float) {} once).content) ∧
      ¬ Absorbed Float (.tombstone (stateTombstone ⟨1⟩ 1)) (.tombstone (stateTombstone ⟨1⟩ 1))
        afterRegistration := by
  obtain ⟨hharmless, hnot⟩ := retries_harmless Float
  constructor
  · have hagain : ∀ b ∈ callsRetried, b ≠ [] ∧ b.Pairwise Again := by
      have hregistered (clk : Nat → TimestampNs) :
          Again (.registerEntry (copyRecord ⟨1⟩ ⟨1⟩) fun _ => 1)
            (.registerEntry (copyRecord ⟨1⟩ ⟨1⟩) clk) := ⟨rfl, 0, clk, rfl⟩
      have hreported (now now' : TimestampNs) :
          Again (.updateHealth ⟨1⟩ .degraded { epoch := ⟨1⟩, boot := ⟨1⟩ } now)
            (.updateHealth ⟨1⟩ .degraded { epoch := ⟨1⟩, boot := ⟨1⟩ } now') :=
        ⟨rfl, now', fun _ => 0, rfl⟩
      refine List.forall_mem_append.mpr ⟨List.forall_mem_map.mpr fun op _ => ?_, ?_⟩
      · exact ⟨by simp, List.pairwise_singleton _ _⟩
      · simp [hregistered, hreported]
    obtain ⟨once, honce, hcontent, _⟩ := hharmless callsRetried hagain
    exact ⟨once, honce, hcontent⟩
  · exact hnot (.tombstone (stateTombstone ⟨1⟩ 1)) afterRegistration rfl (by decide +kernel) 0
      fun _ => 0

end CacheDirectory
