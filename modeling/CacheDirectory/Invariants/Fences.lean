/-
  File:      CacheDirectory/Invariants/Fences.lean
  Subject:   WHOSE FENCE A CALL IS BEHIND.

  A call that registers, updates or renews comes with a boot and a fence, and is refused as
  STALE_AUTHORITY when what it names carries a greater fence. The fence of a stored object is the
  one its owner's last accepted call came with, so what a worker is refused behind is a call of its
  own, whatever the others do, or the snapshot a recovery read.

  * `Stamp`, `OnFile` -- a boot with a fence, and where one is stored;
  * `Operation.stamp`, `Operation.Brings` -- the stamp a call comes with, and those it files;
  * `onFile_step` -- one call;
  * `refused_behind_stored` -- what is on file when a call is refused as stale;
  * `refused_behind_own` -- along runs.
-/
import CacheDirectory.Invariants.Leases
import CacheDirectory.Invariants.Incarnations

namespace CacheDirectory

open Library Directory

/-! ## 1. Stamps -/

/-- A boot and the fence it writes under. -/
structure Stamp where
  boot : WorkerBootId
  fence : UInt64
deriving DecidableEq

def AuthorityEnvelope.stamp (env : AuthorityEnvelope) : Stamp := ⟨env.boot, env.fence⟩

/-- The owner of a descriptor, with the fence its authority carries. -/
def CacheDescriptor.stamp (c : CacheDescriptor) : Stamp := ⟨c.workerBoot, c.authority.fence⟩

def LocationDescriptor.stamp (l : LocationDescriptor) : Stamp := ⟨l.workerBoot, l.authority.fence⟩

def LeaseDescriptor.stamp (l : LeaseDescriptor) : Stamp := ⟨l.holder, l.authority.fence⟩

/-- An object on file was last written under the stamp. -/
inductive OnFile (d : Directory) : Stamp → Prop where
  | cache {id : CacheId} {c : CacheDescriptor} (found : d.caches.find id = some c) :
      OnFile d c.stamp
  | location {id : LocationId} {l : LocationDescriptor} (found : d.locations.find id = some l) :
      OnFile d l.stamp
  | lease {id : LeaseId} {l : LeaseDescriptor} (found : d.leases.find id = some l) :
      OnFile d l.stamp
  | record {r : DirectoryRecord} (found : r ∈ d.records) : OnFile d r.authority.stamp

/-- The stamp a call comes with. Replicas are compared by boot alone, and the end of a lease by
    revocation asks for no authority. -/
def Operation.stamp : Operation → Option Stamp
  | .registerCache cache => some cache.stamp
  | .registerLocation loc => some loc.stamp
  | .registerEntry record _ => some record.authority.stamp
  | .updateHealth _ _ env _ => some env.stamp
  | .updateFreshness _ _ env _ => some env.stamp
  | .updateReachability _ _ env _ => some env.stamp
  | .updateIntegrity _ _ env _ => some env.stamp
  | .updateLifecycle _ _ env _ => some env.stamp
  | .updateCacheHealth _ _ _ env => some env.stamp
  | .updateCacheCapacity _ _ _ env => some env.stamp
  | .registerLease lease => some lease.stamp
  | .renewLease _ env _ => some env.stamp
  | .expireLease _ env _ => some env.stamp
  | _ => none

def Operation.isRenewal : Operation → Bool
  | .renewLease _ _ _ => true
  | _ => false

/-- The call files the stamp: it is accepted and comes with it, or recovers a snapshot that has
    it. -/
def Operation.Brings (F : Type) [ScoreArith F] (op : Operation) (d : Directory) (s : Stamp) :
    Prop :=
  op.Accepted F d ∧ (op.stamp = some s ∨ op.isRecovery = true ∧ OnFile (op.step F d) s)

/-! ## 2. Descriptors -/

/-- Where a descriptor that is filed behind a call comes from, `before` being what was filed under
    its id before the call. -/
inductive Origin {ν : Type} (F : Type) [ScoreArith F] (op : Operation) (d : Directory)
    (stamp : ν → Stamp) (register : ν → Operation) (before : Option ν) (v : ν) : Prop where
  | kept {w : ν} (found : before = some w) (same : stamp v = stamp w)
  | refenced {w : ν} (found : before = some w) (owner : (stamp v).boot = (stamp w).boot)
      (accepted : op.Accepted F d) (own : op.stamp = some (stamp v))
  | registered (accepted : op.Accepted F d) (call : op = register v)

section Call

variable {F : Type} [ScoreArith F] {op : Operation} {d : Directory}

section Origins

variable {ν : Type} {stamp : ν → Stamp} {register : ν → Operation} {before behind : Option ν}

theorem Origin.of_same (h : behind = before) :
    ∀ v, behind = some v → Origin F op d stamp register before v := by
  intro v hv
  exact .kept (h.symm.trans hv) rfl

/-- A mark leaves owner and fence. -/
theorem Origin.of_marked {b : ν → Bool} {f : ν → ν}
    (h : behind = before.map fun v => if b v then f v else v) (hf : ∀ v, stamp (f v) = stamp v) :
    ∀ v, behind = some v → Origin F op d stamp register before v := by
  intro v hv
  rw [h] at hv
  obtain ⟨w, hw, rfl⟩ := Option.map_eq_some_iff.mp hv
  refine .kept hw ?_
  split
  · exact hf w
  · rfl

/-- What is put in place of a descriptor of the same owner, under the stamp of the call. -/
theorem Origin.of_edited {κ : Type} [DecidableEq κ] {key : ν → κ} {m : KeyedMap key} {k : κ}
    (f : ν → ν) (hf : ∀ v, key (f v) = key v) {w : ν} {s : Stamp} (hfound : m.find k = some w)
    (haccepted : op.Accepted F d) (hstamp : op.stamp = some s) (hmade : stamp (f w) = s)
    (howner : (stamp w).boot = s.boot) (k' : κ) :
    ∀ v, (m.adjust (fun v => key v == k) f hf).find k' = some v →
      Origin F op d stamp register (m.find k') v := by
  intro v hv
  rw [KeyedMap.find_adjust] at hv
  obtain ⟨x, hx, rfl⟩ := Option.map_eq_some_iff.mp hv
  by_cases hid : (key x == k) = true
  · have hkey : k = k' := (beq_iff_eq.mp hid).symm.trans (KeyedMap.find_eq_some.mp hx).2
    rw [← hkey, hfound] at hx
    cases hx
    rw [if_pos hid, ← hkey]
    refine .refenced hfound ?_ haccepted ?_
    · rw [hmade, howner]
    · rw [hmade, hstamp]
  · rw [if_neg hid]
    exact .kept hx rfl

end Origins

theorem origin_cache_updated {write : CacheDescriptor → CacheDescriptor}
    {hwrite : ∀ c, (write c).cacheId = c.cacheId} {cid : CacheId} {env : AuthorityEnvelope}
    (hboot : ∀ c, (write c).workerBoot = c.workerBoot)
    (hop : op.run F d = Operation.report (updateCache write hwrite cid env d))
    (hstamp : op.stamp = some env.stamp) (id : CacheId) :
    ∀ c, (op.step F d).caches.find id = some c →
      Origin F op d CacheDescriptor.stamp .registerCache (d.caches.find id) c := by
  have haccepted : (∃ c, (updateCache write hwrite cid env d).1 = .ok c) → op.Accepted F d := by
    intro h
    unfold Operation.Accepted
    rw [hop]
    exact report_eq_none.mpr h
  have hstep : op.step F d = (updateCache write hwrite cid env d).2 := congrArg Prod.snd hop
  rw [hstep]
  rcases @updateCache_cases write hwrite cid env d with ⟨f, hend⟩ | ⟨c, hc, hgranted, hend⟩
  · rw [hend]
    exact .of_same rfl
  · have hmade : (fencedCache write env c).stamp = env.stamp := by
      unfold CacheDescriptor.stamp AuthorityEnvelope.stamp fencedCache
      rw [hboot, hgranted.2.1]
    have howner : c.stamp.boot = env.stamp.boot := hgranted.2.1
    rw [hend] at haccepted ⊢
    exact .of_edited (fencedCache write env) hwrite hc (haccepted ⟨_, rfl⟩) hstamp hmade howner id

theorem origin_cache (hop : op.isRecovery = false) (id : CacheId) :
    ∀ c, (op.step F d).caches.find id = some c →
      Origin F op d CacheDescriptor.stamp .registerCache (d.caches.find id) c := by
  have hquiet (h : op.onCaches = false) : ∀ c, (op.step F d).caches.find id = some c →
      Origin F op d CacheDescriptor.stamp .registerCache (d.caches.find id) c :=
    .of_same (by rw [caches_step F h])
  cases op with
  | recoverFromBuffer buf => cases hop
  | onWorkerLoss b reason => exact .of_marked (find_cache_lost b reason id) fun _ => rfl
  | invalidateCache cid env reason clk =>
      exact .of_marked (find_cache_closed cid env reason clk id) fun _ => rfl
  | registerCache cache =>
      intro c hc
      rw [find_cache_registered] at hc
      split at hc
      case isTrue h =>
        cases hc
        exact .registered h.1 rfl
      case isFalse => exact .kept hc rfl
  | updateCacheHealth cid h reach env =>
      refine origin_cache_updated ?_ rfl rfl id
      exact fun _ => rfl
  | updateCacheCapacity cid capacity free env =>
      refine origin_cache_updated ?_ rfl rfl id
      exact fun _ => rfl
  | _ => exact hquiet rfl

theorem origin_location (hop : op.isRecovery = false) (id : LocationId) :
    ∀ l, (op.step F d).locations.find id = some l →
      Origin F op d LocationDescriptor.stamp .registerLocation (d.locations.find id) l := by
  have hquiet (h : op.onLocations = false) : ∀ l, (op.step F d).locations.find id = some l →
      Origin F op d LocationDescriptor.stamp .registerLocation (d.locations.find id) l :=
    .of_same (by rw [locations_step F h])
  cases op with
  | recoverFromBuffer buf => cases hop
  | onWorkerLoss b reason => exact .of_marked (find_location_lost b reason id) fun _ => rfl
  | invalidateLocation loc env reason clk =>
      exact .of_marked (find_location_closed loc env reason clk id) fun _ => rfl
  | registerLocation loc =>
      intro l hl
      rw [find_location_registered] at hl
      split at hl
      case isTrue h =>
        cases hl
        exact .registered h.1 rfl
      case isFalse => exact .kept hl rfl
  | _ => exact hquiet rfl

/-- A call of the holder that writes its fence into the lease, or fails. -/
theorem origin_lease_edited {env : AuthorityEnvelope} (id' : LeaseId)
    (f : LeaseDescriptor → LeaseDescriptor) (hf : ∀ l, (f l).leaseId = l.leaseId)
    (hstamp : op.stamp = some env.stamp)
    (hmade : ∀ l, l.holder = env.boot → (f l).stamp = env.stamp)
    (hends : op.step F d = d ∨ ∃ l, d.leases.find id' = some l ∧ l.holder = env.boot ∧
      op.Accepted F d ∧ op.step F d = leaseAt d id' f hf) (id : LeaseId) :
    ∀ l, (op.step F d).leases.find id = some l →
      Origin F op d LeaseDescriptor.stamp .registerLease (d.leases.find id) l := by
  rcases hends with hsame | ⟨l, hl, hholder, haccepted, hdone⟩
  · rw [hsame]
    exact .of_same rfl
  · rw [hdone]
    exact .of_edited f hf hl haccepted hstamp (hmade l hholder) hholder id

theorem origin_lease (hop : op.isRecovery = false) (id : LeaseId) :
    ∀ l, (op.step F d).leases.find id = some l →
      Origin F op d LeaseDescriptor.stamp .registerLease (d.leases.find id) l := by
  have hquiet (h : (op.step F d).leases = d.leases) : ∀ l, (op.step F d).leases.find id = some l →
      Origin F op d LeaseDescriptor.stamp .registerLease (d.leases.find id) l :=
    .of_same (by rw [h])
  cases op with
  | recoverFromBuffer buf => cases hop
  | onWorkerLoss b reason =>
      show ∀ l, (d.onWorkerLoss b reason).2.leases.find id = some l → _
      by_cases hlive : d.workerLive b = true
      · rw [leases_onWorkerLoss reason hlive]
        exact .of_marked (KeyedMap.find_adjust ..) fun _ => rfl
      · rw [onWorkerLoss_idle hlive]
        exact .of_same rfl
  | registerLease lease =>
      show ∀ l, (d.registerLease lease).2.leases.find id = some l → _
      by_cases hadmits : AdmitsLease d lease
      · intro l hl
        rw [registerLease_admitted hadmits, KeyedMap.find_put] at hl
        split at hl
        · cases hl
          refine .registered (accepted_registerLease.mpr ?_) rfl
          exact ⟨hadmits.named, hadmits.held, hadmits.epoch, hadmits.live, hadmits.holder⟩
        · exact .kept hl rfl
      · rw [registerLease_refused hadmits]
        exact .of_same rfl
  | renewLease id' env now =>
      refine origin_lease_edited id' (renewed env now) (fun _ => rfl) rfl
        (fun l hholder => congrArg (Stamp.mk · env.fence) hholder) ?_ id
      rcases @renewLease_cases id' env d now with ⟨f, hend⟩ | ⟨l, hl, hgranted, hend⟩
      · exact .inl (congrArg Prod.snd hend)
      · exact .inr ⟨l, hl, hgranted.2.1, accepted_renewLease.mpr ⟨l, hl, hgranted⟩,
          congrArg Prod.snd hend⟩
  | expireLease id' env reason =>
      refine origin_lease_edited id' (fun l => { l with
        state := .expired
        authority := { l.authority with fence := env.fence } }) (fun _ => rfl) rfl
        (fun l hholder => congrArg (Stamp.mk · env.fence) hholder) ?_ id
      rcases @expireLease_cases id' env d reason with ⟨f, hend⟩ | ⟨l, hl, hholder, hend⟩
      · exact .inl (congrArg Prod.snd hend)
      · exact .inr ⟨l, hl, hholder, accepted_expireLease.mpr ⟨l, hl, hholder⟩,
          congrArg Prod.snd hend⟩
  | revokeLease id' env reason =>
      show ∀ l, (d.revokeLease id' env reason).2.leases.find id = some l → _
      rcases @revokeLease_cases id' env d reason with ⟨f, hend⟩ | ⟨l, hl, hend⟩
      · rw [hend]
        exact .of_same rfl
      · have hfind := KeyedMap.find_adjust d.leases (fun l => l.leaseId == id')
          (fun l => { l with state := .revoked }) (fun _ => rfl) id
        rw [hend]
        exact .of_marked hfind fun _ => rfl
  | registerEntry record clk =>
      exact hquiet (commit_keeps (P := fun d' => d'.leases = d.leases) rfl fun _ => rfl)
  | _ => exact hquiet ((restKept_step F rfl d).leases rfl)

/-! ## 3. One call -/

/-- The stamp was on file before the call, or the call files it. -/
def Traced (F : Type) [ScoreArith F] (op : Operation) (d : Directory) (s : Stamp) : Prop :=
  OnFile d s ∨ op.Brings F d s

/-- Recoveries aside, a call files nothing but its stamp. -/
theorem traced_own {s : Stamp} (haccepted : op.Accepted F d) (hstamp : op.stamp = some s) :
    Traced F op d s := .inr ⟨haccepted, .inl hstamp⟩

theorem Origin.traced {ν : Type} {stamp : ν → Stamp} {register : ν → Operation}
    {before : Option ν} {v : ν} (h : Origin F op d stamp register before v)
    (hfile : ∀ w, before = some w → OnFile d (stamp w))
    (hregister : (register v).stamp = some (stamp v)) : Traced F op d (stamp v) := by
  cases h with
  | kept found same =>
      rw [same]
      exact .inl (hfile _ found)
  | refenced found owner accepted own => exact traced_own accepted own
  | registered accepted call => exact traced_own accepted (by rw [call]; exact hregister)

/-- An update of evidence, by the envelope it comes with. -/
theorem run_of_evidence {id : DirectoryRecordId} {env : AuthorityEnvelope}
    {write : DirectoryRecord → DirectoryRecord} (h : op.evidence = some (id, env, write)) :
    op.stamp = some env.stamp ∧
      ∃ now, op.run F d = Operation.report (updateEvidence write id env now d) :=
  evidence_cases (P := fun op write => op.stamp = some env.stamp ∧
      ∃ now, op.run F d = Operation.report (updateEvidence write id env now d))
    (fun _ now => ⟨rfl, now, rfl⟩) (fun _ now => ⟨rfl, now, rfl⟩) (fun _ now => ⟨rfl, now, rfl⟩)
    (fun _ now => ⟨rfl, now, rfl⟩) h

/-- One of a record that is not frozen is accepted. -/
theorem accepted_evidence {id : DirectoryRecordId} {env : AuthorityEnvelope}
    {write : DirectoryRecord → DirectoryRecord} {i : Fin d.records.length}
    (h : op.evidence = some (id, env, write)) (hi : Admitted id env d i)
    (hfree : ¬ Frozen (d.records.get i)) : op.Accepted F d := by
  obtain ⟨_, now, hrun⟩ := @run_of_evidence F _ op d id env write h
  unfold Operation.Accepted
  rw [hrun]
  rcases @updateEvidence_cases id env now d write with
    ⟨f, _, hno⟩ | ⟨j, hj, hcan, _⟩ | ⟨j, r, _, _, _, hend⟩
  · exact absurd hi (hno i)
  · rw [hj.unique hi] at hcan
    exact absurd ((canLifecycle_derived _ _).mp hcan) hfree
  · rw [hend]
    rfl

/-- What an admitted update stamps a record with. -/
theorem stamp_restamped {id : DirectoryRecordId} {env : AuthorityEnvelope} {s : LifecycleState}
    {now : TimestampNs} {i : Fin d.records.length} {r : DirectoryRecord}
    (hi : Admitted id env d i) (hauth : r.authority = (d.records.get i).authority) :
    (restamped s env now r).authority.stamp = env.stamp := by
  have hboot : r.authority.boot = env.boot :=
    (congrArg (·.boot) hauth).trans (authorised_iff.mp hi.authorised).2.1
  exact congrArg (Stamp.mk · env.fence) hboot

theorem traced_records (hop : op.isRecovery = false) :
    ∀ r ∈ (op.step F d).records, Traced F op d r.authority.stamp := by
  refine forall_records_step F hop (fun r hr r' hedited => ?_) fun r hr => ?_
  · have hold : Traced F op d r.authority.stamp := .inl (.record hr)
    cases hedited with
    | untouched op r => exact hold
    | lost live boot =>
        unfold loseRecord
        split <;> exact hold
    | displaced admitted hit => exact hold
    | late hev hi hfrozen =>
        rw [(write_guarded hev _).2.1]
        exact hold
    | evidence now hev hi hfree =>
        rw [stamp_restamped hi (write_guarded hev _).2.1]
        exact traced_own (accepted_evidence hev hi hfree) (@run_of_evidence F _ _ d _ _ _ hev).1
    | relabelled hi can =>
        rw [stamp_restamped hi rfl]
        exact traced_own (accepted_updateLifecycle.mpr ⟨_, hi, can⟩) rfl
    | invalidated now reach hit current _ => exact hold
    | buried _ _ _ => exact hold
  · cases op with
    | registerEntry record clk =>
        cases hcheck : d.checkRegistration record with
        | some f =>
            rw [appended_rejected hcheck] at hr
            cases hr
        | none =>
            rw [appended_admitted hcheck, List.mem_singleton] at hr
            rw [hr]
            exact traced_own (accepted_registerEntry.mpr hcheck) rfl
    | _ => cases hr

/-- **One call files its own stamp**, if it is accepted; a recovery those of its snapshot. -/
theorem onFile_step (op : Operation) (d : Directory) {s : Stamp} (h : OnFile (op.step F d) s) :
    OnFile d s ∨ op.Brings F d s := by
  cases hop : op.isRecovery with
  | true =>
      by_cases haccepted : op.Accepted F d
      · exact .inr ⟨haccepted, .inr ⟨hop, h⟩⟩
      · have hsame : op.step F d = d := by
          cases op with
          | recoverFromBuffer buf => exact rejected_step rfl (by simp) haccepted
          | _ => cases hop
        rw [hsame] at h
        exact .inl h
  | false =>
      cases h with
      | cache hfound => exact (origin_cache hop _ _ hfound).traced (fun _ => .cache) rfl
      | location hfound => exact (origin_location hop _ _ hfound).traced (fun _ => .location) rfl
      | lease hfound => exact (origin_lease hop _ _ hfound).traced (fun _ => .lease) rfl
      | record hfound => exact traced_records hop _ hfound

end Call

/-! ## 4. Refusals -/

/-- The stamp on file a call is behind: the caller's own, and greater but for a renewal, which may
    not repeat it either. -/
structure BehindBy (op : Operation) (s s' : Stamp) : Prop where
  boot : s'.boot = s.boot
  le : s.fence ≤ s'.fence
  lt : op.isRenewal = false → s.fence < s'.fence

section Refusals

variable {F : Type} [ScoreArith F] {op : Operation} {d : Directory} {f : Failure}

theorem BehindBy.of_lt {s s' : Stamp} (hboot : s'.boot = s.boot) (hlt : s.fence < s'.fence) :
    BehindBy op s s' := ⟨hboot, UInt64.le_of_lt hlt, fun _ => hlt⟩

/-- Other failures than STALE_AUTHORITY are not the one at hand. -/
theorem ne_of_stale (hstale : f.error = .staleAuthority) {g : Failure}
    (hg : g.error ≠ .staleAuthority) : g ≠ f := by
  rintro rfl
  exact hg hstale

theorem stale_registerCache {cache : CacheDescriptor} (h : (d.registerCache cache).1 = .error f)
    (hstale : f.error = .staleAuthority) :
    ∃ s, OnFile d s ∧ BehindBy (.registerCache cache) cache.stamp s := by
  have hpast {g : Failure} : g.error ≠ .staleAuthority → g ≠ f := ne_of_stale hstale
  have hfirst := firstFailure_of_guarded h
  obtain ⟨_, hfirst⟩ := firstFailure_past hfirst (hpast (by decide))
  obtain ⟨_, hfirst⟩ := firstFailure_past hfirst (hpast (by decide))
  obtain ⟨_, hfirst⟩ := firstFailure_past hfirst (hpast (by decide))
  obtain ⟨_, hfirst⟩ := firstFailure_past hfirst (hpast (by decide))
  obtain ⟨howner, hfirst⟩ := firstFailure_past hfirst (hpast (by decide))
  have hbehind := mem_of_firstFailure hfirst
  cases hfound : d.caches.find cache.cacheId with
  | none => simp [hfound] at hbehind
  | some c =>
      simp [hfound] at howner hbehind
      exact ⟨c.stamp, .cache hfound, .of_lt howner hbehind.1⟩

theorem stale_registerLocation {loc : LocationDescriptor}
    (h : (d.registerLocation loc).1 = .error f) (hstale : f.error = .staleAuthority) :
    ∃ s, OnFile d s ∧ BehindBy (.registerLocation loc) loc.stamp s := by
  have hpast {g : Failure} : g.error ≠ .staleAuthority → g ≠ f := ne_of_stale hstale
  have hfirst := firstFailure_of_guarded h
  obtain ⟨_, hfirst⟩ := firstFailure_past hfirst (hpast (by decide))
  obtain ⟨_, hfirst⟩ := firstFailure_past hfirst (hpast (by decide))
  obtain ⟨_, hfirst⟩ := firstFailure_past hfirst (hpast (by decide))
  obtain ⟨_, hfirst⟩ := firstFailure_past hfirst (hpast (by decide))
  obtain ⟨_, hfirst⟩ := firstFailure_past hfirst (hpast (by decide))
  obtain ⟨howner, hfirst⟩ := firstFailure_past hfirst (hpast (by decide))
  have hbehind := mem_of_firstFailure hfirst
  cases hfound : d.locations.find loc.locationId with
  | none => simp [hfound] at hbehind
  | some l =>
      simp [hfound] at howner hbehind
      rcases hbehind with ⟨hlt, _⟩ | ⟨_, hother⟩
      · exact ⟨l.stamp, .location hfound, .of_lt howner hlt⟩
      · exact absurd hother.symm (hpast (by decide))

/-- What an update is refused for as stale: the fence of a record of its own. -/
theorem stale_update {env : AuthorityEnvelope} {i : Fin d.records.length}
    (h : d.checkUpdateAuthority (d.records.get i) env = some f)
    (hstale : f.error = .staleAuthority) : ∃ s, OnFile d s ∧ BehindBy op env.stamp s := by
  have hpast {g : Failure} : g.error ≠ .staleAuthority → g ≠ f := ne_of_stale hstale
  obtain ⟨_, hfirst⟩ := firstFailure_past h (hpast (by decide))
  obtain ⟨howner, hfirst⟩ := firstFailure_past hfirst (hpast (by decide))
  have hbehind := mem_of_firstFailure hfirst
  simp at howner hbehind
  exact ⟨_, .record (List.get_mem d.records i), .of_lt howner hbehind.1⟩

/-- An update of a record fails for want of a record, of authority or of an edge. -/
theorem failed_recordCall {id : DirectoryRecordId} {env : AuthorityEnvelope} {now : TimestampNs}
    {x : Result DirectoryRecord × Directory}
    (hx : (∃ write, x = updateEvidence write id env now d) ∨
      ∃ s, x = d.updateLifecycle id s env now) (h : x.1 = .error f) :
    f = noSuchRecord ∨ f = illegalTransition ∨
      ∃ i, d.checkUpdateAuthority (d.records.get i) env = some f := by
  rcases hx with ⟨write, rfl⟩ | ⟨s, rfl⟩
  all_goals
    simp only [updateEvidence, updateLifecycle] at h
    cases hfound : d.findRecordIndex id with
    | none =>
        rw [hfound] at h
        cases h
        exact .inl rfl
    | some i =>
        simp only [hfound] at h
        cases hauth : d.checkUpdateAuthority (d.records.get i) env with
        | some g =>
            rw [hauth] at h
            cases h
            exact .inr (.inr ⟨i, hauth⟩)
        | none =>
            simp only [hauth] at h
            split at h
            · cases h
              exact .inr (.inl rfl)
            · cases h

theorem stale_recordCall {id : DirectoryRecordId} {env : AuthorityEnvelope} {now : TimestampNs}
    {x : Result DirectoryRecord × Directory}
    (hx : (∃ write, x = updateEvidence write id env now d) ∨
      ∃ s, x = d.updateLifecycle id s env now) (h : x.1 = .error f)
    (hstale : f.error = .staleAuthority) : ∃ s, OnFile d s ∧ BehindBy op env.stamp s := by
  rcases failed_recordCall hx h with rfl | rfl | ⟨i, hauth⟩
  · cases hstale
  · cases hstale
  · exact stale_update hauth hstale

theorem stale_updateCache {write : CacheDescriptor → CacheDescriptor}
    {hwrite : ∀ c, (write c).cacheId = c.cacheId} {id : CacheId} {env : AuthorityEnvelope}
    (h : (updateCache write hwrite id env d).1 = .error f) (hstale : f.error = .staleAuthority) :
    ∃ s, OnFile d s ∧ BehindBy op env.stamp s := by
  have hpast {g : Failure} : g.error ≠ .staleAuthority → g ≠ f := ne_of_stale hstale
  unfold updateCache at h
  cases hfound : d.caches.find id with
  | none =>
      rw [hfound] at h
      cases h
      cases hstale
  | some c =>
      simp only [hfound] at h
      obtain ⟨_, hfirst⟩ := firstFailure_past (firstFailure_of_guarded h) (hpast (by decide))
      obtain ⟨howner, hfirst⟩ := firstFailure_past hfirst (hpast (by decide))
      have hbehind := mem_of_firstFailure hfirst
      simp at howner hbehind
      exact ⟨c.stamp, .cache hfound, .of_lt howner hbehind.1⟩

/-- A renewal is refused as stale under the fence it was filed with, too. -/
theorem stale_renewLease {id : LeaseId} {env : AuthorityEnvelope} {now : TimestampNs}
    (h : (d.renewLease id env now).1 = .error f) (hstale : f.error = .staleAuthority) :
    ∃ s, OnFile d s ∧ BehindBy (.renewLease id env now) env.stamp s := by
  have hpast {g : Failure} : g.error ≠ .staleAuthority → g ≠ f := ne_of_stale hstale
  unfold renewLease at h
  cases hfound : d.leases.find id with
  | none =>
      rw [hfound] at h
      cases h
      cases hstale
  | some l =>
      simp only [hfound] at h
      obtain ⟨_, hfirst⟩ := firstFailure_past (firstFailure_of_guarded h) (hpast (by decide))
      obtain ⟨howner, hfirst⟩ := firstFailure_past hfirst (hpast (by decide))
      have hbehind := mem_of_firstFailure hfirst
      simp at howner hbehind
      rcases hbehind with ⟨hle, _⟩ | ⟨_, hother⟩
      · exact ⟨l.stamp, .lease hfound, howner, hle, fun h => by cases h⟩
      · exact absurd hother.symm (hpast (by decide))

/-- No other call is refused as stale. -/
theorem not_stale_registerEntry {record : DirectoryRecord} {clk : Nat → TimestampNs}
    (h : (d.registerEntry record clk).1 = .error f) : f.error ≠ .staleAuthority := by
  have hcheck := registerEntry_error.mp h
  unfold checkRegistration at hcheck
  rcases Option.or_eq_some_iff.mp hcheck with hfirst | ⟨_, hdup⟩
  · have hall : ∀ c ∈ d.dependencyChecks record ++ [d.tombstoneCheck record,
        d.generationCheck record], c.2.error ≠ .staleAuthority := by
      unfold dependencyChecks tombstoneCheck generationCheck
      simp only [List.cons_append, List.nil_append, List.forall_mem_cons, List.not_mem_nil,
        false_implies, implies_true, and_true]
      decide
    exact hall _ (mem_of_firstFailure hfirst)
  · obtain ⟨r, _, rfl⟩ := Option.map_eq_some_iff.mp hdup
    split
    · decide
    · decide

theorem not_stale_registerLease {lease : LeaseDescriptor}
    (h : (d.registerLease lease).1 = .error f) : f.error ≠ .staleAuthority := by
  have hmem := mem_of_guarded_failed h
  revert hmem
  simp only [List.mem_cons, Prod.mk.injEq, List.not_mem_nil, or_false]
  rintro (⟨_, rfl⟩ | ⟨_, rfl⟩ | ⟨_, rfl⟩ | ⟨_, rfl⟩ | ⟨_, rfl⟩) <;> decide

theorem not_stale_expireLease {id : LeaseId} {env : AuthorityEnvelope} {reason : Bytes}
    (h : (d.expireLease id env reason).1 = .error f) : f.error ≠ .staleAuthority := by
  unfold expireLease at h
  cases hfound : d.leases.find id with
  | none =>
      rw [hfound] at h
      cases h
      decide
  | some l =>
      simp only [hfound] at h
      have hmem := mem_of_guarded_failed h
      simp only [List.mem_singleton, Prod.mk.injEq] at hmem
      rw [hmem.2]
      decide

/-- **What is on file when a call is refused as stale**: a stamp of the caller's boot, and no
    smaller fence. -/
theorem refused_behind_stored {s : Stamp} (hstamp : op.stamp = some s)
    (h : (op.run F d).1 = some f) (hstale : f.error = .staleAuthority) :
    ∃ s', OnFile d s' ∧ BehindBy op s s' := by
  cases op with
  | registerCache cache =>
      cases hstamp
      exact stale_registerCache (report_eq_some.mp h) hstale
  | registerLocation loc =>
      cases hstamp
      exact stale_registerLocation (report_eq_some.mp h) hstale
  | registerEntry record clk =>
      exact absurd hstale (not_stale_registerEntry (report_eq_some.mp h))
  | updateHealth id health env now =>
      cases hstamp
      exact stale_recordCall (.inl ⟨_, rfl⟩) (report_eq_some.mp h) hstale
  | updateFreshness id fresh env now =>
      cases hstamp
      exact stale_recordCall (.inl ⟨_, rfl⟩) (report_eq_some.mp h) hstale
  | updateReachability id reach env now =>
      cases hstamp
      exact stale_recordCall (.inl ⟨_, rfl⟩) (report_eq_some.mp h) hstale
  | updateIntegrity id integ env now =>
      cases hstamp
      exact stale_recordCall (.inl ⟨_, rfl⟩) (report_eq_some.mp h) hstale
  | updateLifecycle id state env now =>
      cases hstamp
      exact stale_recordCall (.inr ⟨_, rfl⟩) (report_eq_some.mp h) hstale
  | updateCacheHealth id health reach env =>
      cases hstamp
      exact stale_updateCache (report_eq_some.mp h) hstale
  | updateCacheCapacity id capacity free env =>
      cases hstamp
      exact stale_updateCache (report_eq_some.mp h) hstale
  | registerLease lease => exact absurd hstale (not_stale_registerLease (report_eq_some.mp h))
  | renewLease id env now =>
      cases hstamp
      exact stale_renewLease (report_eq_some.mp h) hstale
  | expireLease id env reason =>
      exact absurd hstale (not_stale_expireLease (report_eq_some.mp h))
  | _ => cases hstamp

end Refusals

/-! ## 5. Runs -/

theorem not_onFile_empty (s : Stamp) : ¬ OnFile {} s := by
  intro h
  cases h with
  | cache hfound => cases hfound
  | location hfound => cases hfound
  | lease hfound => cases hfound
  | record hfound => cases hfound

/-- **A worker is stale only behind itself.** Whatever calls were made, in whatever names and in
    whatever order, the fence of a call refused as STALE_AUTHORITY is below that of an earlier
    accepted call in the name of the same boot, or of a snapshot recovered that has it on file for
    that boot; for a renewal it may also be the same. -/
theorem refused_behind_own (F : Type) [ScoreArith F] {ops : List Operation} {op : Operation}
    {s : Stamp} {f : Failure} (hstamp : op.stamp = some s)
    (h : (op.run F (after (Operation.step F) {} ops)).1 = some f)
    (hstale : f.error = .staleAuthority) :
    ∃ pre i post s', ops = pre ++ i :: post ∧ i.Brings F (after (Operation.step F) {} pre) s' ∧
      BehindBy op s s' := by
  obtain ⟨s', hfile, hbehind⟩ := refused_behind_stored hstamp h hstale
  have horigin := @origin_after _ _ (Operation.step F) (fun d => OnFile d s')
    (fun i d => i.Brings F d s') (fun i d => onFile_step i d) ops {} hfile
  rcases horigin with hstart | ⟨pre, i, post, hsplit, hbrings⟩
  · exact absurd hstart (not_onFile_empty s')
  · exact ⟨pre, i, post, s', hsplit, hbrings, hbehind⟩

/-- The cache of worker 1, brought under fence 5, and a call of worker 2. -/
def fencedOnce : List Operation :=
  twoWorkers ++ [.updateCacheHealth ⟨1⟩ .degraded .reachable
      { epoch := ⟨1⟩, boot := ⟨1⟩, fence := 5 },
    .registerCache { attachedCache ⟨1⟩ ⟨2⟩ with
      workerBoot := ⟨2⟩, authority := { epoch := ⟨1⟩, boot := ⟨2⟩, fence := 7 } }]

theorem refused_behind_own_fencedOnce :
    ∃ pre i post s', fencedOnce = pre ++ i :: post ∧
      i.Brings Float (after (Operation.step Float) {} pre) s' ∧
      BehindBy (.updateCacheCapacity ⟨1⟩ 8 8 { epoch := ⟨1⟩, boot := ⟨1⟩, fence := 3 })
        ⟨⟨1⟩, 3⟩ s' :=
  refused_behind_own Float (f := ⟨.staleAuthority, "stale authority"⟩) rfl (by decide +kernel) rfl

end CacheDirectory
