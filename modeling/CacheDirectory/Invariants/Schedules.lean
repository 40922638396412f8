/-
  File:      CacheDirectory/Invariants/Schedules.lean
  Subject:   WHETHER THE ORDER OF CALLS ON DIFFERENT OBJECTS MATTERS.

  A controlled update works on one object: the first record with the id, the cache, the lease, the
  ranking policy or the id counter. It reads nothing else but the epoch, and writes nothing else
  but the accounting and the dirty flag. So updates of different objects may be exchanged.

  * `Revision` -- an assignment to one object; `Operation.plan` -- the outcome of an update and the
    revision it makes, read off the epoch and its object;
  * `plan_spec` -- the call does what its plan says;
  * `apply_comm`, `plan_apply` -- revisions of different objects commute, and plans for one object
    are not affected by revisions of another;
  * `exchangeable` -- updates of different objects commute, outcomes included;
  * `schedules_agree` -- any two schedules with the same updates in the same order at every
    object.
-/
import CacheDirectory.Invariants.Content
import CacheDirectory.Invariants.Ownership

namespace CacheDirectory

open Library Directory

/-! ## 1. Objects -/

/-- What an update works on. -/
inductive Object where
  | record (id : DirectoryRecordId)
  | cache (id : CacheId)
  | lease (id : LeaseId)
  | policy
  | counter
  deriving DecidableEq

/-- The object of an update. -/
def Operation.object : Operation → Option Object
  | .updateHealth id _ _ _ => some (.record id)
  | .updateFreshness id _ _ _ => some (.record id)
  | .updateReachability id _ _ _ => some (.record id)
  | .updateIntegrity id _ _ _ => some (.record id)
  | .updateLifecycle id _ _ _ => some (.record id)
  | .updateCacheHealth id _ _ _ => some (.cache id)
  | .updateCacheCapacity id _ _ _ => some (.cache id)
  | .renewLease id _ _ => some (.lease id)
  | .expireLease id _ _ => some (.lease id)
  | .revokeLease id _ _ => some (.lease id)
  | .setRankingPolicy _ => some .policy
  | .nextObjectId => some .counter
  | _ => none

/-- An assignment to one object. -/
inductive Revision where
  | nothing
  | record (id : DirectoryRecordId) (f : DirectoryRecord → DirectoryRecord)
      (hf : ∀ r, (f r).recordId = r.recordId)
  | cache (id : CacheId) (f : CacheDescriptor → CacheDescriptor)
      (hf : ∀ c, (f c).cacheId = c.cacheId)
  | lease (id : LeaseId) (f : LeaseDescriptor → LeaseDescriptor)
      (hf : ∀ l, (f l).leaseId = l.leaseId)
  | policy (p : RankingPolicy)
  | counter

namespace Revision

def object : Revision → Option Object
  | nothing => none
  | record id _ _ => some (.record id)
  | cache id _ _ => some (.cache id)
  | lease id _ _ => some (.lease id)
  | policy _ => some .policy
  | counter => some .counter

def apply (v : Revision) (d : Directory) : Directory :=
  match v with
  | nothing => d
  | record id f _ => { d with records := reviseFirst (fun r => r.recordId == id) f d.records }
  | cache id f hf => { d with caches := d.caches.adjust (fun c => c.cacheId == id) f hf }
  | lease id f hf => { d with leases := d.leases.adjust (fun l => l.leaseId == id) f hf }
  | policy p => { d with policy := p }
  | counter => { d with nextObj := d.nextObj + 1 }

theorem content_apply (v : Revision) (d : Directory) :
    (v.apply d.content).content = (v.apply d).content := by
  cases v <;> rfl

theorem content_congr (v : Revision) {d d' : Directory} (h : d.content = d'.content) :
    (v.apply d).content = (v.apply d').content := by
  rw [← content_apply v d, h, content_apply]

end Revision

/-! ## 2. What an update reads -/

/-- The object is the same in both states; nobody reads the policy or the counter to write it. -/
def Object.Same : Object → Directory → Directory → Prop
  | .record id, d, d' => d.record id = d'.record id
  | .cache id, d, d' => d.caches.find id = d'.caches.find id
  | .lease id, d, d' => d.leases.find id = d'.leases.find id
  | .policy, _, _ => True
  | .counter, _, _ => True

/-- Wherever the epoch and the object are those of `d`, the call reports `e` and makes the
    revision `v`, of its object or of nothing. -/
structure Local (run : Directory → Option Failure × Directory) (x : Object) (d : Directory)
    (e : Option Failure) (v : Revision) : Prop where
  object : v = .nothing ∨ v.object = some x
  run : ∀ d', d'.epoch = d.epoch → x.Same d' d →
    (run d').1 = e ∧ (run d').2.content = (v.apply d').content

section Local

variable {d : Directory} {id : DirectoryRecordId} {env : AuthorityEnvelope} {now : TimestampNs}

/-- The position of a record, and an assignment there. -/
theorem found_record {r : DirectoryRecord} (h : d.record id = some r) :
    ∃ i, d.findRecordIndex id = some i ∧ d.records.get i = r ∧
      ∀ f : DirectoryRecord → DirectoryRecord,
        d.records.set i (f r) = reviseFirst (fun r => r.recordId == id) f d.records := by
  obtain ⟨i, hi, hget⟩ := Option.map_eq_some_iff.mp h
  refine ⟨i, hi, hget, fun f => ?_⟩
  rw [← hget]
  exact set_eq_reviseFirst hi

theorem authority_of_epoch {d' : Directory} (h : d'.epoch = d.epoch) (r : DirectoryRecord) :
    d'.checkUpdateAuthority r env = d.checkUpdateAuthority r env := by
  unfold checkUpdateAuthority
  rw [h]

theorem local_evidence (write : DirectoryRecord → DirectoryRecord)
    (hwrite : ∀ r, (write r).recordId = r.recordId) (d : Directory) :
    ∃ e v, Local (fun d => Operation.report (updateEvidence write id env now d)) (.record id) d
      e v := by
  cases hr : d.record id with
  | none =>
      refine ⟨some noSuchRecord, .nothing, .inl rfl, fun d' _ hsame => ?_⟩
      have hnone : d'.findRecordIndex id = none := Option.map_eq_none_iff.mp (hsame.trans hr)
      unfold updateEvidence
      rw [hnone]
      exact ⟨rfl, rfl⟩
  | some r =>
      cases hauth : d.checkUpdateAuthority r env with
      | some f =>
          refine ⟨some f, .nothing, .inl rfl, fun d' hepoch hsame => ?_⟩
          obtain ⟨i, hi, hget, _⟩ := found_record (hsame.trans hr)
          unfold updateEvidence
          rw [hi]
          dsimp only
          rw [hget, authority_of_epoch hepoch, hauth]
          exact ⟨rfl, rfl⟩
      | none =>
          cases hcan : canLifecycle r.lifecycle (deriveLifecycle (write r)) with
          | false =>
              refine ⟨some illegalTransition, .record id write hwrite, .inr rfl,
                fun d' hepoch hsame => ?_⟩
              obtain ⟨i, hi, hget, hset⟩ := found_record (hsame.trans hr)
              unfold updateEvidence
              rw [hi]
              dsimp only
              rw [hget, authority_of_epoch hepoch, hauth]
              dsimp only
              rw [hcan, hset]
              exact ⟨rfl, rfl⟩
          | true =>
              refine ⟨none, .record id
                (fun r => restamped (deriveLifecycle (write r)) env now (write r)) hwrite,
                .inr rfl, fun d' hepoch hsame => ?_⟩
              obtain ⟨i, hi, hget, hset⟩ := found_record (hsame.trans hr)
              unfold updateEvidence
              rw [hi]
              dsimp only
              rw [hget, authority_of_epoch hepoch, hauth]
              dsimp only
              rw [hcan]
              refine ⟨rfl, ?_⟩
              show Directory.content { d' with
                records := d'.records.set i
                  (restamped (deriveLifecycle (write r)) env now (write r)) } = _
              rw [hset fun r => restamped (deriveLifecycle (write r)) env now (write r)]
              rfl

theorem local_lifecycle {s : LifecycleState} (d : Directory) :
    ∃ e v, Local (fun d => Operation.report (d.updateLifecycle id s env now)) (.record id) d
      e v := by
  cases hr : d.record id with
  | none =>
      refine ⟨some noSuchRecord, .nothing, .inl rfl, fun d' _ hsame => ?_⟩
      have hnone : d'.findRecordIndex id = none := Option.map_eq_none_iff.mp (hsame.trans hr)
      unfold updateLifecycle
      rw [hnone]
      exact ⟨rfl, rfl⟩
  | some r =>
      cases hauth : d.checkUpdateAuthority r env with
      | some f =>
          refine ⟨some f, .nothing, .inl rfl, fun d' hepoch hsame => ?_⟩
          obtain ⟨i, hi, hget, _⟩ := found_record (hsame.trans hr)
          unfold updateLifecycle
          rw [hi]
          dsimp only
          rw [hget, authority_of_epoch hepoch, hauth]
          exact ⟨rfl, rfl⟩
      | none =>
          cases hcan : canLifecycle r.lifecycle s with
          | false =>
              refine ⟨some illegalTransition, .nothing, .inl rfl, fun d' hepoch hsame => ?_⟩
              obtain ⟨i, hi, hget, _⟩ := found_record (hsame.trans hr)
              unfold updateLifecycle
              rw [hi]
              dsimp only
              rw [hget, authority_of_epoch hepoch, hauth]
              dsimp only
              rw [hcan]
              exact ⟨rfl, rfl⟩
          | true =>
              refine ⟨none, .record id (restamped s env now) fun _ => rfl, .inr rfl,
                fun d' hepoch hsame => ?_⟩
              obtain ⟨i, hi, hget, hset⟩ := found_record (hsame.trans hr)
              unfold updateLifecycle
              rw [hi]
              dsimp only
              rw [hget, authority_of_epoch hepoch, hauth]
              dsimp only
              rw [hcan]
              refine ⟨rfl, ?_⟩
              show Directory.content { d' with
                records := d'.records.set i (restamped s env now r) } = _
              rw [hset (restamped s env now)]
              rfl

/-- A call whose checks go by the epoch and its object, and whose action is the revision. -/
theorem local_guarded {α : Type} {x : Object} {run : Directory → Result α × Directory}
    {checks : Directory → List (Bool × Failure)} {act : Directory → α × Directory}
    (v : Revision) (hv : v.object = some x)
    (hrun : ∀ d', x.Same d' d → run d' = guarded (checks d') d' (act d'))
    (hchecks : ∀ d', d'.epoch = d.epoch → checks d' = checks d)
    (hact : ∀ d', (act d').2.content = (v.apply d').content) :
    ∃ e v, Local (fun d => Operation.report (run d)) x d e v := by
  cases hf : firstFailure (checks d) with
  | some f =>
      refine ⟨some f, .nothing, .inl rfl, fun d' hepoch hsame => ?_⟩
      unfold guarded at hrun
      rw [hrun d' hsame, hchecks d' hepoch, hf]
      exact ⟨rfl, rfl⟩
  | none =>
      refine ⟨none, v, .inr hv, fun d' hepoch hsame => ?_⟩
      unfold guarded at hrun
      rw [hrun d' hsame, hchecks d' hepoch, hf]
      exact ⟨rfl, hact d'⟩

theorem local_cache (write : CacheDescriptor → CacheDescriptor)
    (hwrite : ∀ c, (write c).cacheId = c.cacheId) {id : CacheId} (d : Directory) :
    ∃ e v, Local (fun d => Operation.report (updateCache write hwrite id env d)) (.cache id) d
      e v := by
  cases hc : d.caches.find id with
  | none =>
      refine ⟨some ⟨.invalidIdentity, "no such cache"⟩, .nothing, .inl rfl, fun d' _ hsame => ?_⟩
      unfold updateCache
      rw [hsame.trans hc]
      exact ⟨rfl, rfl⟩
  | some c =>
      apply local_guarded (.cache id (fun c =>
        { write c with authority := { (write c).authority with fence := env.fence } }) hwrite) rfl
      · intro d' hsame
        unfold updateCache
        rw [hsame.trans hc]
      · intro d' hepoch
        rw [hepoch]
      · exact fun d' => rfl

theorem local_renew {id : LeaseId} (d : Directory) :
    ∃ e v, Local (fun d => Operation.report (d.renewLease id env now)) (.lease id) d e v := by
  cases hl : d.leases.find id with
  | none =>
      refine ⟨some noSuchLease, .nothing, .inl rfl, fun d' _ hsame => ?_⟩
      unfold renewLease
      rw [hsame.trans hl]
      exact ⟨rfl, rfl⟩
  | some l =>
      apply local_guarded (.lease id (renewed env now) fun _ => rfl) rfl
      · intro d' hsame
        unfold renewLease
        rw [hsame.trans hl]
      · intro d' hepoch
        rw [hepoch]
      · exact fun d' => rfl

theorem local_expire {id : LeaseId} {reason : Bytes} (d : Directory) :
    ∃ e v, Local (fun d => Operation.report (d.expireLease id env reason)) (.lease id) d e v := by
  cases hl : d.leases.find id with
  | none =>
      refine ⟨some noSuchLease, .nothing, .inl rfl, fun d' _ hsame => ?_⟩
      unfold expireLease
      rw [hsame.trans hl]
      exact ⟨rfl, rfl⟩
  | some l =>
      apply local_guarded (.lease id (fun l => { l with
        state := .expired
        authority := { l.authority with fence := env.fence } }) fun _ => rfl) rfl
      · intro d' hsame
        unfold expireLease
        rw [hsame.trans hl]
      · exact fun d' _ => rfl
      · exact fun d' => rfl

theorem local_revoke {id : LeaseId} {reason : Bytes} (d : Directory) :
    ∃ e v, Local (fun d => Operation.report (d.revokeLease id env reason)) (.lease id) d e v := by
  cases hl : d.leases.find id with
  | none =>
      refine ⟨some noSuchLease, .nothing, .inl rfl, fun d' _ hsame => ?_⟩
      unfold revokeLease
      rw [hsame.trans hl]
      exact ⟨rfl, rfl⟩
  | some l =>
      refine ⟨none, .lease id (fun l => { l with state := .revoked }) fun _ => rfl, .inr rfl,
        fun d' _ hsame => ?_⟩
      unfold revokeLease
      rw [hsame.trans hl]
      exact ⟨rfl, rfl⟩

/-- **An update goes by the epoch and its object**, and revises nothing but its object. -/
theorem local_update (F : Type) [ScoreArith F] {op : Operation} {x : Object}
    (hop : op.object = some x) (d : Directory) : ∃ e v, Local (op.run F) x d e v := by
  cases op with
  | updateHealth id h env now =>
      cases hop
      exact local_evidence (fun r => { r with health := h }) (fun _ => rfl) d
  | updateFreshness id f env now =>
      cases hop
      exact local_evidence (fun r => { r with freshness := f }) (fun _ => rfl) d
  | updateReachability id reach env now =>
      cases hop
      exact local_evidence (fun r => { r with reachability := reach }) (fun _ => rfl) d
  | updateIntegrity id integ env now =>
      cases hop
      exact local_evidence (fun r => { r with integrity := integ }) (fun _ => rfl) d
  | updateLifecycle id s env now =>
      cases hop
      exact local_lifecycle d
  | updateCacheHealth id h reach env =>
      cases hop
      exact local_cache (fun c => { c with health := h, reachability := reach }) (fun _ => rfl) d
  | updateCacheCapacity id capacity free env =>
      cases hop
      exact local_cache (fun c => { c with
        capacity := capacity
        capacityKnown := true
        freeCapacity := free
        freeCapacityKnown := true }) (fun _ => rfl) d
  | renewLease id env now =>
      cases hop
      exact local_renew d
  | expireLease id env reason =>
      cases hop
      exact local_expire d
  | revokeLease id env reason =>
      cases hop
      exact local_revoke d
  | setRankingPolicy p =>
      cases hop
      exact ⟨none, .policy p, .inr rfl, fun _ _ _ => ⟨rfl, rfl⟩⟩
  | nextObjectId =>
      cases hop
      exact ⟨none, .counter, .inr rfl, fun _ _ _ => ⟨rfl, rfl⟩⟩
  | _ => cases hop

end Local

/-! ## 3. Different objects -/

section Different

variable {d d' : Directory} {x : Object} {v v' : Revision}

theorem same_of_content (h : d.content = d'.content) (x : Object) : x.Same d d' := by
  have hrecords : d.records = d'.records := (congrArg Directory.records h :)
  have hcaches : d.caches = d'.caches := (congrArg Directory.caches h :)
  have hleases : d.leases = d'.leases := (congrArg Directory.leases h :)
  cases x with
  | record id =>
      show d.record id = d'.record id
      rw [record_eq_find, record_eq_find, hrecords]
  | cache id => exact congrArg (fun m => m.find id) hcaches
  | lease id => exact congrArg (fun m => m.find id) hleases
  | policy | counter => trivial

theorem Object.Same.trans {d'' : Directory} (h : x.Same d d') (h' : x.Same d' d'') :
    x.Same d d'' := by
  cases x with
  | record id => exact Eq.trans h h'
  | cache id => exact Eq.trans h h'
  | lease id => exact Eq.trans h h'
  | policy => trivial
  | counter => trivial

/-- Ids that differ are not both those of one value. -/
theorem beq_other {κ ν : Type} [DecidableEq κ] {key : ν → κ} {k k' : κ} (h : k ≠ k')
    {f : ν → ν} (hf : ∀ a, key (f a) = key a) :
    ∀ a, (key a == k) = true → (key a == k') = false ∧ (key (f a) == k') = false := by
  intro a ha
  have hne : (key a == k') = false := by
    rw [beq_iff_eq.mp ha]
    exact beq_false_of_ne h
  rw [hf]
  exact ⟨hne, hne⟩

/-- A revision leaves other objects alone. -/
theorem same_apply (hother : v.object ≠ some x) (d : Directory) : x.Same (v.apply d) d := by
  cases v with
  | record id f hf =>
      cases x with
      | record id' =>
          have hne : id ≠ id' := fun heq => hother (congrArg (some ∘ Object.record) heq)
          show Directory.record _ id' = d.record id'
          rw [record_eq_find, record_eq_find]
          exact find?_reviseFirst (beq_other hne hf) d.records
      | cache | lease => exact rfl
      | policy | counter => trivial
  | cache id f hf =>
      cases x with
      | cache id' =>
          have hne : id ≠ id' := fun heq => hother (congrArg (some ∘ Object.cache) heq)
          exact KeyedMap.find_adjust_other hf (beq_false_of_ne hne.symm)
      | record | lease => exact rfl
      | policy | counter => trivial
  | lease id f hf =>
      cases x with
      | lease id' =>
          have hne : id ≠ id' := fun heq => hother (congrArg (some ∘ Object.lease) heq)
          exact KeyedMap.find_adjust_other hf (beq_false_of_ne hne.symm)
      | record | cache => exact rfl
      | policy | counter => trivial
  | nothing | policy | counter =>
      cases x with
      | record | cache | lease => exact rfl
      | policy | counter => trivial

/-- Adjustments under different keys commute. -/
theorem adjust_other {κ ν : Type} [DecidableEq κ] {key : ν → κ} (m : KeyedMap key) {k k' : κ}
    (h : k ≠ k') {f g : ν → ν} (hf : ∀ a, key (f a) = key a) (hg : ∀ a, key (g a) = key a) :
    (m.adjust (fun a => key a == k) f hf).adjust (fun a => key a == k') g hg =
      (m.adjust (fun a => key a == k') g hg).adjust (fun a => key a == k) f hf := by
  refine m.adjust_comm hf hg (fun a ha => (beq_other h hf a ha).1) (fun a => ?_) fun a => ?_
  · rw [hf]
  · rw [hg]

/-- Revisions of different objects commute. -/
theorem apply_comm (h : ∀ x, v.object = some x → v'.object ≠ some x) (d : Directory) :
    v.apply (v'.apply d) = v'.apply (v.apply d) := by
  cases v with
  | nothing => rfl
  | record id f hf =>
      cases v' with
      | record id' g hg =>
          have hne : id ≠ id' := by
            rintro rfl
            exact h _ rfl rfl
          exact congrArg (fun l => { d with records := l })
            (reviseFirst_comm (beq_other hne hf) (beq_other hne.symm hg) d.records)
      | _ => rfl
  | cache id f hf =>
      cases v' with
      | cache id' g hg =>
          have hne : id ≠ id' := by
            rintro rfl
            exact h _ rfl rfl
          exact congrArg (fun m => { d with caches := m }) (adjust_other d.caches hne hf hg).symm
      | _ => rfl
  | lease id f hf =>
      cases v' with
      | lease id' g hg =>
          have hne : id ≠ id' := by
            rintro rfl
            exact h _ rfl rfl
          exact congrArg (fun m => { d with leases := m }) (adjust_other d.leases hne hf hg).symm
      | _ => rfl
  | policy p =>
      cases v' with
      | policy p' => exact absurd rfl (h _ rfl)
      | _ => rfl
  | counter =>
      cases v' with
      | counter => exact absurd rfl (h _ rfl)
      | _ => rfl

end Different

/-! ## 4. Schedules -/

section Schedules

variable {F : Type} [ScoreArith F] {a b : Operation} {x y : Object} {d : Directory}

/-- An update leaves the epoch and other objects alone. -/
theorem same_step (hb : b.object = some y) (h : x ≠ y) (d : Directory) :
    (b.step F d).epoch = d.epoch ∧ x.Same (b.step F d) d := by
  obtain ⟨e, v, hlocal⟩ := local_update F hb d
  have hcontent : (b.step F d).content = (v.apply d).content :=
    (hlocal.run d rfl (same_of_content rfl y)).2
  have hepoch : (b.step F d).epoch = (v.apply d).epoch := (congrArg Directory.epoch hcontent :)
  have hother : v.object ≠ some x := by
    rcases hlocal.object with rfl | hobject
    · exact nofun
    · rw [hobject]
      exact fun heq => h (Option.some.inj heq).symm
  refine ⟨hepoch.trans ?_, (same_of_content hcontent x).trans (same_apply hother d)⟩
  cases v <;> rfl

/-- **Updates of different objects may be exchanged.** -/
theorem exchangeable (ha : a.object = some x) (hb : b.object = some y) (h : x ≠ y) :
    Exchangeable (Operation.step F) (Operation.failure F) Directory.content a b := by
  have hout {a b : Operation} {x y : Object} (ha : a.object = some x) (hb : b.object = some y)
      (h : x ≠ y) (d : Directory) : a.failure F (b.step F d) = a.failure F d := by
    obtain ⟨e, v, hlocal⟩ := local_update F ha d
    obtain ⟨hepoch, hsame⟩ := same_step (F := F) hb h d
    exact ((hlocal.run _ hepoch hsame).1).trans
      (hlocal.run d rfl (same_of_content rfl x)).1.symm
  refine ⟨fun d => ?_, hout ha hb h, hout hb ha h.symm⟩
  obtain ⟨_, v, hv⟩ := local_update F ha d
  obtain ⟨_, v', hv'⟩ := local_update F hb d
  have hapart : ∀ z, v.object = some z → v'.object ≠ some z := by
    intro z hz hz'
    rcases hv.object with rfl | hx
    · cases hz
    · rcases hv'.object with rfl | hy
      · cases hz'
      · exact h (Option.some.inj ((hx.symm.trans hz).trans (hz'.symm.trans hy)))
  obtain ⟨hepoch, hsame⟩ := same_step (F := F) hb h d
  obtain ⟨hepoch', hsame'⟩ := same_step (F := F) ha h.symm d
  calc (a.step F (b.step F d)).content
      = (v.apply (b.step F d)).content := (hv.run _ hepoch hsame).2
    _ = (v.apply (v'.apply d)).content :=
        v.content_congr (hv'.run d rfl (same_of_content rfl y)).2
    _ = (v'.apply (v.apply d)).content := by rw [apply_comm hapart]
    _ = (v'.apply (a.step F d)).content :=
        (v'.content_congr (hv.run d rfl (same_of_content rfl x)).2).symm
    _ = (b.step F (a.step F d)).content := ((hv'.run _ hepoch' hsame').2).symm

end Schedules

/-- The update works on the object. -/
def Operation.on (x : Object) (op : Operation) : Bool := op.object = some x

/-- **The schedule does not matter.** Two schedules of updates, from whatever directory, in which
    every object gets the same updates in the same order, however they are interleaved: the
    directory stores the same behind them, and every object's updates succeed and fail alike. -/
theorem schedules_agree (F : Type) [ScoreArith F] (d : Directory) (ops ops' : List Operation)
    (hops : ∀ op ∈ ops, ∃ x, op.object = some x) (hops' : ∀ op ∈ ops', ∃ x, op.object = some x)
    (h : ∀ x, ops.filter (Operation.on x) = ops'.filter (Operation.on x)) :
    (after (Operation.step F) d ops).content = (after (Operation.step F) d ops').content ∧
      ∀ x, (reports (Operation.step F) (Operation.failure F) d ops).filter (fun r => r.1.on x) =
        (reports (Operation.step F) (Operation.failure F) d ops').filter fun r => r.1.on x := by
  have hkeys {op : Operation} (hop : ∃ x, op.object = some x) :
      ∃ x, Operation.on x op = true := hop.imp fun x hx => decide_eq_true hx
  have hswapped : Swapped (Apart Operation.on) ops ops' :=
    swapped_of_keys (fun op hop => hkeys (hops' op hop)) (fun op hop => hkeys (hops op hop)) h
  have hcomm : ∀ a ∈ ops, ∀ b ∈ ops, Apart Operation.on a b →
      Exchangeable (Operation.step F) (Operation.failure F) Directory.content a b := by
    rintro a - b - ⟨⟨x, hx⟩, ⟨y, hy⟩, hapart⟩
    refine exchangeable (of_decide_eq_true hx) (of_decide_eq_true hy) ?_
    rintro rfl
    exact Bool.false_ne_true ((hapart x hx).symm.trans hy)
  have hblind : ∀ op ∈ ops,
      Blind (Operation.step F) (Operation.failure F) Directory.content op := by
    intro op hop
    refine blind_step F ?_
    rintro rfl
    obtain ⟨x, hx⟩ := hops _ hop
    cases hx
  obtain ⟨hcontent, hreports⟩ := seen_of_swapped hswapped hblind hcomm rfl
  exact ⟨hcontent, fun x => hreports.filter_eq fun i j hij hi => hij.apart x hi⟩

/-- The worker reports on the health of its copy and on the capacity of its cache. -/
def capacityUpdate : Operation := .updateCacheCapacity ⟨1⟩ 100 50 { epoch := ⟨1⟩, boot := ⟨1⟩ }

def healthFirst : List Operation := [healthUpdate .degraded, capacityUpdate, healthUpdate .healthy]

def capacityFirst : List Operation :=
  [capacityUpdate, healthUpdate .degraded, healthUpdate .healthy]

theorem schedules_agree_copy :
    (after (Operation.step Float) afterRegistration healthFirst).content =
      (after (Operation.step Float) afterRegistration capacityFirst).content := by
  have hfirst : ∀ op ∈ healthFirst, ∃ x, op.object = some x := by
    unfold healthFirst
    simp only [List.forall_mem_cons]
    exact ⟨⟨_, rfl⟩, ⟨_, rfl⟩, ⟨_, rfl⟩, List.forall_mem_nil _⟩
  have hsecond : ∀ op ∈ capacityFirst, ∃ x, op.object = some x := by
    unfold capacityFirst
    simp only [List.forall_mem_cons]
    exact ⟨⟨_, rfl⟩, ⟨_, rfl⟩, ⟨_, rfl⟩, List.forall_mem_nil _⟩
  have hobjects : ∀ x, healthFirst.filter (Operation.on x) =
      capacityFirst.filter (Operation.on x) := by
    intro x
    cases x <;> rfl
  exact (schedules_agree Float afterRegistration healthFirst capacityFirst hfirst hsecond
    hobjects).1

end CacheDirectory
