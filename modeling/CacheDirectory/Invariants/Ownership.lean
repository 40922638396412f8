/-
  File:      CacheDirectory/Invariants/Ownership.lean
  Subject:   OWNERS STAY, AND FENCES ONLY RISE.

  Without recovery a cache and a location keep the incarnation they were registered under, a
  record keeps the two boots it carries, and no call lowers a fence or the generation of a
  location. Every call that writes a fence has compared it with the one on file first.

  * `Guarded.Cache`, `Guarded.Location`, `Guarded.Record` -- one descriptor before and after;
  * `Guards`, `guards_step` -- the directory before and after a call;
  * `stale_refused`, `foreign_refused` -- a call with a fence below the one on file, or one that
    names another incarnation, is refused;
  * `ownership_never_goes_back` -- along runs.
-/
import CacheDirectory.Invariants.Descriptors
import CacheDirectory.Invariants.Edits

namespace CacheDirectory

open Library Directory

/-! ## 1. One descriptor -/

namespace Guarded

/-- A cache before and after. -/
structure Cache (c c' : CacheDescriptor) : Prop where
  owner : c'.workerBoot = c.workerBoot
  fence : c.authority.fence ≤ c'.authority.fence

/-- A location before and after. -/
structure Location (l l' : LocationDescriptor) : Prop where
  owner : l'.workerBoot = l.workerBoot
  fence : l.authority.fence ≤ l'.authority.fence
  generation : l.generation.value ≤ l'.generation.value

/-- A record before and after. -/
structure Record (r r' : DirectoryRecord) : Prop where
  recordId : r'.recordId = r.recordId
  boot : r'.authority.boot = r.authority.boot
  workerBoot : r'.workerBoot = r.workerBoot
  fence : r.authority.fence ≤ r'.authority.fence

theorem Cache.refl (c : CacheDescriptor) : Cache c c := ⟨rfl, UInt64.le_refl _⟩

theorem Cache.trans {a b c : CacheDescriptor} (h : Cache a b) (h' : Cache b c) : Cache a c :=
  ⟨h'.owner.trans h.owner, UInt64.le_trans h.fence h'.fence⟩

theorem Location.refl (l : LocationDescriptor) : Location l l :=
  ⟨rfl, UInt64.le_refl _, UInt64.le_refl _⟩

theorem Location.trans {a b c : LocationDescriptor} (h : Location a b) (h' : Location b c) :
    Location a c :=
  ⟨h'.owner.trans h.owner, UInt64.le_trans h.fence h'.fence,
    UInt64.le_trans h.generation h'.generation⟩

theorem Record.refl (r : DirectoryRecord) : Record r r := ⟨rfl, rfl, rfl, UInt64.le_refl _⟩

theorem Record.trans {a b c : DirectoryRecord} (h : Record a b) (h' : Record b c) : Record a c :=
  ⟨h'.recordId.trans h.recordId, h'.boot.trans h.boot, h'.workerBoot.trans h.workerBoot,
    UInt64.le_trans h.fence h'.fence⟩

end Guarded

/-! ## 2. The directory -/

/-- What is on file before stays on file, under its owner and behind its fence. -/
structure Guards (d d' : Directory) : Prop where
  caches : ∀ id c, d.caches.find id = some c →
    ∃ c', d'.caches.find id = some c' ∧ Guarded.Cache c c'
  locations : ∀ id l, d.locations.find id = some l →
    ∃ l', d'.locations.find id = some l' ∧ Guarded.Location l l'
  records : ∀ i : Nat, ∀ r, d.records[i]? = some r →
    ∃ r', d'.records[i]? = some r' ∧ Guarded.Record r r'

theorem Guards.refl (d : Directory) : Guards d d :=
  ⟨fun _ c h => ⟨c, h, .refl c⟩, fun _ l h => ⟨l, h, .refl l⟩, fun _ r h => ⟨r, h, .refl r⟩⟩

theorem Guards.trans {a b c : Directory} (h : Guards a b) (h' : Guards b c) : Guards a c := by
  refine ⟨fun id x hx => ?_, fun id x hx => ?_, fun i x hx => ?_⟩
  · obtain ⟨y, hy, hxy⟩ := h.caches id x hx
    obtain ⟨z, hz, hyz⟩ := h'.caches id y hy
    exact ⟨z, hz, hxy.trans hyz⟩
  · obtain ⟨y, hy, hxy⟩ := h.locations id x hx
    obtain ⟨z, hz, hyz⟩ := h'.locations id y hy
    exact ⟨z, hz, hxy.trans hyz⟩
  · obtain ⟨y, hy, hxy⟩ := h.records i x hx
    obtain ⟨z, hz, hyz⟩ := h'.records i y hy
    exact ⟨z, hz, hxy.trans hyz⟩

section Step

variable {F : Type} [ScoreArith F] {d : Directory} {op : Operation}

/-- A mark leaves owner and fence. -/
theorem guarded_marked {ν : Type} {R : ν → ν → Prop} {v : ν} {b : Bool} {f : ν → ν}
    (hkept : R v v) (h : R v (f v)) : R v (if b then f v else v) := by
  cases b with
  | true => exact h
  | false => exact hkept

theorem guards_cache_updated {write : CacheDescriptor → CacheDescriptor}
    {hwrite : ∀ c, (write c).cacheId = c.cacheId} {cid : CacheId} {env : AuthorityEnvelope}
    {id : CacheId} {c : CacheDescriptor} (hown : (write c).workerBoot = c.workerBoot)
    (hc : d.caches.find id = some c) :
    ∃ c', (updateCache write hwrite cid env d).2.caches.find id = some c' ∧
      Guarded.Cache c c' := by
  rcases @find_cache_updated d write hwrite cid env id c hc with hsame | ⟨hfence, hnew⟩
  · exact ⟨c, hsame, .refl c⟩
  · exact ⟨_, hnew, hown, UInt64.not_lt.mp hfence⟩

theorem guards_caches (hop : op.isRecovery = false) {id : CacheId} {c : CacheDescriptor}
    (hc : d.caches.find id = some c) :
    ∃ c', (op.step F d).caches.find id = some c' ∧ Guarded.Cache c c' := by
  have hquiet (h : op.onCaches = false) :
      ∃ c', (op.step F d).caches.find id = some c' ∧ Guarded.Cache c c' := by
    rw [caches_step F h]
    exact ⟨c, hc, .refl c⟩
  cases op with
  | onWorkerLoss b reason =>
      rw [find_cache_lost, hc, Option.map_some]
      exact ⟨_, rfl, guarded_marked (.refl c) ⟨rfl, UInt64.le_refl _⟩⟩
  | registerCache cache =>
      rw [find_cache_registered]
      split
      · next h =>
          obtain ⟨hacc, rfl⟩ := h
          have howner := (accepted_registerCache.mp hacc).2.2.2.2 c hc
          exact ⟨cache, rfl, howner.1.symm, UInt64.not_lt.mp howner.2⟩
      · exact ⟨c, hc, .refl c⟩
  | updateCacheHealth cid h reach env => exact guards_cache_updated rfl hc
  | updateCacheCapacity cid capacity free env => exact guards_cache_updated rfl hc
  | invalidateCache cid env reason clk =>
      rw [find_cache_closed, hc, Option.map_some]
      exact ⟨_, rfl, guarded_marked (.refl c) ⟨rfl, UInt64.le_refl _⟩⟩
  | recoverFromBuffer buf => cases hop
  | _ => exact hquiet rfl

theorem guards_locations (hop : op.isRecovery = false) {id : LocationId} {l : LocationDescriptor}
    (hl : d.locations.find id = some l) :
    ∃ l', (op.step F d).locations.find id = some l' ∧ Guarded.Location l l' := by
  have hquiet (h : op.onLocations = false) :
      ∃ l', (op.step F d).locations.find id = some l' ∧ Guarded.Location l l' := by
    rw [locations_step F h]
    exact ⟨l, hl, .refl l⟩
  cases op with
  | onWorkerLoss b reason =>
      rw [find_location_lost, hl, Option.map_some]
      exact ⟨_, rfl, guarded_marked (.refl l) ⟨rfl, UInt64.le_refl _, UInt64.le_refl _⟩⟩
  | registerLocation loc =>
      rw [find_location_registered]
      split
      · next h =>
          obtain ⟨hacc, rfl⟩ := h
          obtain ⟨howner, hfence, hgen⟩ := (accepted_registerLocation.mp hacc).2.2.2.2.2 l hl
          exact ⟨loc, rfl, howner.symm, UInt64.not_lt.mp hfence, UInt64.not_lt.mp hgen⟩
      · exact ⟨l, hl, .refl l⟩
  | invalidateLocation loc env reason clk =>
      rw [find_location_closed, hl, Option.map_some]
      exact ⟨_, rfl, guarded_marked (.refl l) ⟨rfl, UInt64.le_refl _, UInt64.le_refl _⟩⟩
  | recoverFromBuffer buf => cases hop
  | _ => exact hquiet rfl

/-- An assignment of evidence leaves the id, the authority and the boot. -/
theorem write_guarded {id : DirectoryRecordId} {env : AuthorityEnvelope}
    {write : DirectoryRecord → DirectoryRecord} (hev : op.evidence = some (id, env, write))
    (r : DirectoryRecord) :
    (write r).recordId = r.recordId ∧ (write r).authority = r.authority ∧
      (write r).workerBoot = r.workerBoot := by
  cases op with
  | updateHealth id h env now =>
      cases hev
      exact ⟨rfl, rfl, rfl⟩
  | updateFreshness id f env now =>
      cases hev
      exact ⟨rfl, rfl, rfl⟩
  | updateReachability id reach env now =>
      cases hev
      exact ⟨rfl, rfl, rfl⟩
  | updateIntegrity id integ env now =>
      cases hev
      exact ⟨rfl, rfl, rfl⟩
  | _ => cases hev

/-- An admitted update has compared its fence. -/
theorem guarded_restamped {id : DirectoryRecordId} {env : AuthorityEnvelope}
    {s : LifecycleState} {now : TimestampNs} {i : Fin d.records.length} {r : DirectoryRecord}
    (hi : Admitted id env d i) (hid : r.recordId = (d.records.get i).recordId)
    (hauth : r.authority = (d.records.get i).authority)
    (hboot : r.workerBoot = (d.records.get i).workerBoot) :
    Guarded.Record (d.records.get i) (restamped s env now r) := by
  have hfence := (authorised_iff.mp hi.authorised).2.2
  exact ⟨hid, congrArg (·.boot) hauth, hboot, UInt64.not_lt.mp hfence⟩

/-- **No edit of a record lowers its fence or moves it to another boot.** -/
theorem guarded_edited {r r' : DirectoryRecord} (h : Edited d op r r') : Guarded.Record r r' := by
  cases h with
  | untouched op r => exact .refl r
  | lost live boot =>
      unfold loseRecord
      split <;> exact ⟨rfl, rfl, rfl, UInt64.le_refl _⟩
  | displaced admitted hit => exact ⟨rfl, rfl, rfl, UInt64.le_refl _⟩
  | late hev hi hfrozen =>
      obtain ⟨hid, hauth, hboot⟩ := write_guarded hev (d.records.get _)
      exact ⟨hid, congrArg (·.boot) hauth, hboot, by rw [hauth]; exact UInt64.le_refl _⟩
  | evidence now hev hi hfree =>
      obtain ⟨hid, hauth, hboot⟩ := write_guarded hev (d.records.get _)
      exact guarded_restamped hi hid hauth hboot
  | relabelled hi can => exact guarded_restamped hi rfl rfl rfl
  | invalidated now reach hit current _ => exact ⟨rfl, rfl, rfl, UInt64.le_refl _⟩
  | buried _ _ _ => exact ⟨rfl, rfl, rfl, UInt64.le_refl _⟩

/-- **Every call but a recovery** keeps what is on file under its owner and behind its fence. -/
theorem guards_step (F : Type) [ScoreArith F] {op : Operation} (hop : op.isRecovery = false)
    (d : Directory) : Guards d (op.step F d) := by
  refine ⟨fun id c hc => guards_caches hop hc, fun id l hl => guards_locations hop hl, ?_⟩
  intro i r hr
  obtain ⟨l, hl, hrecords⟩ := edited_step F hop d
  obtain ⟨r', hr', hedited⟩ := exists_getElem?_of_forall₂ hl (op.appended d) hr
  rw [hrecords]
  exact ⟨r', hr', guarded_edited hedited⟩

end Step

/-! ## 3. Late assertions -/

/-- The record under the id has a greater fence than the envelope. -/
def OutdatedRecord (id : DirectoryRecordId) (env : AuthorityEnvelope) (d : Directory) : Prop :=
  ∃ r, d.record id = some r ∧ env.fence < r.authority.fence

/-- The cache under the id has a greater fence. -/
def OutdatedCache (id : CacheId) (env : AuthorityEnvelope) (d : Directory) : Prop :=
  ∃ c, d.caches.find id = some c ∧ env.fence < c.authority.fence

/-- The call comes with a fence below that of the record, the cache or the location it names. -/
def Operation.Stale (op : Operation) (d : Directory) : Prop :=
  match op with
  | .updateHealth id _ env _ => OutdatedRecord id env d
  | .updateFreshness id _ env _ => OutdatedRecord id env d
  | .updateReachability id _ env _ => OutdatedRecord id env d
  | .updateIntegrity id _ env _ => OutdatedRecord id env d
  | .updateLifecycle id _ env _ => OutdatedRecord id env d
  | .updateCacheHealth id _ _ env => OutdatedCache id env d
  | .updateCacheCapacity id _ _ env => OutdatedCache id env d
  | .registerCache cache => OutdatedCache cache.cacheId cache.authority d
  | .registerLocation loc =>
      ∃ l, d.locations.find loc.locationId = some l ∧ loc.authority.fence < l.authority.fence
  | _ => False

/-- The call registers a cache or a location that another incarnation has on file. -/
def Operation.Foreign (op : Operation) (d : Directory) : Prop :=
  match op with
  | .registerCache cache =>
      ∃ c, d.caches.find cache.cacheId = some c ∧ cache.workerBoot ≠ c.workerBoot
  | .registerLocation loc =>
      ∃ l, d.locations.find loc.locationId = some l ∧ loc.workerBoot ≠ l.workerBoot
  | _ => False

section Late

variable {F : Type} [ScoreArith F] {d t : Directory} {op : Operation}

/-- The record under an id is the first that carries it. -/
theorem record_eq_find (d : Directory) (id : DirectoryRecordId) :
    d.record id = d.records.find? fun r => r.recordId == id := by
  unfold Directory.record findRecordIndex
  exact (List.find?_eq_map_findFinIdx?_getElem ..).symm

/-- The record under an id stays the one at its position. -/
theorem Guards.record (h : Guards d t) {id : DirectoryRecordId} {r : DirectoryRecord}
    (hr : d.record id = some r) : ∃ r', t.record id = some r' ∧ Guarded.Record r r' := by
  rw [record_eq_find, List.find?_eq_some_iff_getElem] at hr
  obtain ⟨hid, i, hi, hget, hfirst⟩ := hr
  obtain ⟨r', hr', hguarded⟩ := h.records i r (List.getElem?_eq_some_iff.mpr ⟨hi, hget⟩)
  obtain ⟨hi', hget'⟩ := List.getElem?_eq_some_iff.mp hr'
  refine ⟨r', ?_, hguarded⟩
  rw [record_eq_find, List.find?_eq_some_iff_getElem]
  refine ⟨by rw [hguarded.recordId]; exact hid, i, hi', hget', fun j hj => ?_⟩
  -- what stood before it carried another id, and still does
  obtain ⟨x, hx, hxguarded⟩ := h.records j d.records[j] (List.getElem?_eq_getElem _)
  obtain ⟨_, hxget⟩ := List.getElem?_eq_some_iff.mp hx
  rw [hxget, hxguarded.recordId]
  exact hfirst j hj

section Refused

variable {id : DirectoryRecordId} {env : AuthorityEnvelope}

/-- No update is admitted to a record with a greater fence. -/
theorem not_admitted_of_outdated (h : OutdatedRecord id env d) (i : Fin d.records.length) :
    ¬ Admitted id env d i := by
  intro hi
  obtain ⟨r, hr, hfence⟩ := h
  have hfound : d.record id = some (d.records.get i) := by
    unfold Directory.record
    rw [hi.found]
    rfl
  rw [hfound] at hr
  cases hr
  exact (authorised_iff.mp hi.authorised).2.2 hfence

theorem not_writes_of_outdated (write : DirectoryRecord → DirectoryRecord)
    (h : OutdatedRecord id env d) : ¬ Writes write id env d := by
  intro hw
  obtain ⟨i, hi, _⟩ := hw
  exact not_admitted_of_outdated h i hi

theorem not_owns_of_outdated {cid : CacheId} (h : OutdatedCache cid env d) :
    ¬ OwnsCache cid env d := by
  intro howns
  obtain ⟨c, hc, hfence⟩ := h
  obtain ⟨c', hc', _, _, hge⟩ := howns
  rw [hc] at hc'
  cases hc'
  exact hge hfence

end Refused

/-- **A call with a fence below the one on file is refused.** -/
theorem stale_refused (h : op.Stale d) : op.Refused F d := by
  cases op with
  | updateHealth id h' env now =>
      exact (refused_iff_not_granted F rfl).mpr
        (not_writes_of_outdated (fun r => { r with health := h' }) h)
  | updateFreshness id f env now =>
      exact (refused_iff_not_granted F rfl).mpr
        (not_writes_of_outdated (fun r => { r with freshness := f }) h)
  | updateReachability id reach env now =>
      exact (refused_iff_not_granted F rfl).mpr
        (not_writes_of_outdated (fun r => { r with reachability := reach }) h)
  | updateIntegrity id integ env now =>
      exact (refused_iff_not_granted F rfl).mpr
        (not_writes_of_outdated (fun r => { r with integrity := integ }) h)
  | updateLifecycle id s env now =>
      refine (refused_iff_not_granted F rfl).mpr fun hgranted => ?_
      obtain ⟨i, hi, _⟩ := hgranted
      exact not_admitted_of_outdated h i hi
  | updateCacheHealth id h' reach env =>
      exact (refused_iff_not_granted F rfl).mpr (not_owns_of_outdated h)
  | updateCacheCapacity id capacity free env =>
      exact (refused_iff_not_granted F rfl).mpr (not_owns_of_outdated h)
  | registerCache cache =>
      obtain ⟨c, hc, hfence⟩ := h
      refine (refused_iff rfl (by simp)).mpr fun hacc => ?_
      exact ((accepted_registerCache.mp hacc).2.2.2.2 c hc).2 hfence
  | registerLocation loc =>
      obtain ⟨l, hl, hfence⟩ := h
      refine (refused_iff rfl (by simp)).mpr fun hacc => ?_
      exact ((accepted_registerLocation.mp hacc).2.2.2.2.2 l hl).2.1 hfence
  | _ => cases h

/-- **A call that names another incarnation is refused.** -/
theorem foreign_refused (h : op.Foreign d) : op.Refused F d := by
  cases op with
  | registerCache cache =>
      obtain ⟨c, hc, hother⟩ := h
      refine (refused_iff rfl (by simp)).mpr fun hacc => ?_
      exact hother ((accepted_registerCache.mp hacc).2.2.2.2 c hc).1.symm
  | registerLocation loc =>
      obtain ⟨l, hl, hother⟩ := h
      refine (refused_iff rfl (by simp)).mpr fun hacc => ?_
      exact hother ((accepted_registerLocation.mp hacc).2.2.2.2.2 l hl).1.symm
  | _ => cases h

/-! ## 4. What is late stays late -/

theorem OutdatedRecord.later {id : DirectoryRecordId} {env : AuthorityEnvelope}
    (h : OutdatedRecord id env d) (hg : Guards d t) : OutdatedRecord id env t := by
  obtain ⟨r, hr, hfence⟩ := h
  obtain ⟨r', hr', hguarded⟩ := hg.record hr
  exact ⟨r', hr', UInt64.lt_of_lt_of_le hfence hguarded.fence⟩

theorem OutdatedCache.later {id : CacheId} {env : AuthorityEnvelope}
    (h : OutdatedCache id env d) (hg : Guards d t) : OutdatedCache id env t := by
  obtain ⟨c, hc, hfence⟩ := h
  obtain ⟨c', hc', hguarded⟩ := hg.caches id c hc
  exact ⟨c', hc', UInt64.lt_of_lt_of_le hfence hguarded.fence⟩

theorem stale_later (h : op.Stale d) (hg : Guards d t) : op.Stale t := by
  cases op with
  | updateHealth id h' env now => exact OutdatedRecord.later h hg
  | updateFreshness id f env now => exact OutdatedRecord.later h hg
  | updateReachability id reach env now => exact OutdatedRecord.later h hg
  | updateIntegrity id integ env now => exact OutdatedRecord.later h hg
  | updateLifecycle id s env now => exact OutdatedRecord.later h hg
  | updateCacheHealth id h' reach env => exact OutdatedCache.later h hg
  | updateCacheCapacity id capacity free env => exact OutdatedCache.later h hg
  | registerCache cache => exact OutdatedCache.later h hg
  | registerLocation loc =>
      obtain ⟨l, hl, hfence⟩ := h
      obtain ⟨l', hl', hguarded⟩ := hg.locations _ l hl
      exact ⟨l', hl', UInt64.lt_of_lt_of_le hfence hguarded.fence⟩
  | _ => cases h

theorem foreign_later (h : op.Foreign d) (hg : Guards d t) : op.Foreign t := by
  cases op with
  | registerCache cache =>
      obtain ⟨c, hc, hother⟩ := h
      obtain ⟨c', hc', hguarded⟩ := hg.caches _ c hc
      exact ⟨c', hc', by rw [hguarded.owner]; exact hother⟩
  | registerLocation loc =>
      obtain ⟨l, hl, hother⟩ := h
      obtain ⟨l', hl', hguarded⟩ := hg.locations _ l hl
      exact ⟨l', hl', by rw [hguarded.owner]; exact hother⟩
  | _ => cases h

end Late

/-! ## 5. Runs -/

/-- Every state of a run without recoveries guards what the first one has on file. -/
theorem guards_visited (F : Type) [ScoreArith F] (d : Directory) (ops : List Operation)
    (hops : ∀ op ∈ ops, op.isRecovery = false) :
    ∀ t ∈ visited (Operation.step F) d ops, Guards d t := by
  have hfollows : Follows (Operation.step F) (fun op _ => op.isRecovery = false) d ops :=
    (follows_const _ ops d).mpr hops
  have hstep (op : Operation) (t : Directory) (ht : Guards d t) (hop : op.isRecovery = false) :
      Guards d (op.step F t) := ht.trans (guards_step F hop t)
  exact visited_of_follows hstep ops d (.refl d) hfollows

/-- **Owners stay and fences only rise** between any two states of a run without recoveries; and
    what comes with a fence below one that was ever on file, or names another incarnation than
    one that was, is refused from then on. -/
theorem ownership_never_goes_back (F : Type) [ScoreArith F] (d : Directory) (ops : List Operation)
    (hops : ∀ op ∈ ops, op.isRecovery = false) (pre post : List Operation)
    (hsplit : ops = pre ++ post) :
    ∀ t ∈ visited (Operation.step F) (after (Operation.step F) d pre) post,
      Guards (after (Operation.step F) d pre) t ∧
        ∀ op : Operation, op.Stale (after (Operation.step F) d pre) ∨
          op.Foreign (after (Operation.step F) d pre) → op.Refused F t := by
  intro t ht
  have hpost : ∀ op ∈ post, op.isRecovery = false := fun op hop =>
    hops op (by rw [hsplit]; exact List.mem_append_right _ hop)
  have hg := guards_visited F _ post hpost t ht
  refine ⟨hg, fun op h => ?_⟩
  rcases h with hstale | hforeign
  · exact stale_refused (stale_later hstale hg)
  · exact foreign_refused (foreign_later hforeign hg)

theorem ownership_ownerLost :
    Guards afterRegistration ownerLost ∧
      ∀ op : Operation, op.Stale afterRegistration ∨ op.Foreign afterRegistration →
        op.Refused Float ownerLost :=
  ownership_never_goes_back Float {} lossOfOwner (by decide) registeredOnce [.onWorkerLoss ⟨1⟩ []]
    rfl ownerLost (List.mem_cons_of_mem _ (start_mem_visited _ _ _))

end CacheDirectory
