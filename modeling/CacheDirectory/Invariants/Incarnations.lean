/-
  File:      CacheDirectory/Invariants/Incarnations.lean
  Subject:   WHETHER OWNER AND AUTHORITY ARE ONE INCARNATION.

  A cache, a location and a record carry two boots: `worker_boot`, by which a loss finds them, and
  `authority.boot`, by which an update of a record is admitted. A registration asks whether one of
  the two is live, the first for caches and locations, the second for records; it never compares
  them with each other.

  * `OneIncarnation` -- the two are the same wherever both are stored;
  * `namesOwner_iff` -- one call keeps it exactly when what it files names one boot;
  * `incarnations_iff` -- along runs, and for snapshots of directories that have it.
-/
import CacheDirectory.Invariants.Agreement

namespace CacheDirectory

open Library Directory

/-! ## 1. What is stored -/

/-- Every stored cache, location and record is authorised by the incarnation that owns it. -/
structure OneIncarnation (d : Directory) : Prop where
  caches : ∀ id c, d.caches.find id = some c → c.authority.boot = c.workerBoot
  locations : ∀ id l, d.locations.find id = some l → l.authority.boot = l.workerBoot
  records : ∀ r ∈ d.records, r.authority.boot = r.workerBoot

/-- The same of a snapshot. -/
structure Snapshot.OneIncarnation (s : Snapshot) : Prop where
  caches : ∀ c ∈ s.caches, c.authority.boot = c.workerBoot
  locations : ∀ l ∈ s.locations, l.authority.boot = l.workerBoot
  records : ∀ r ∈ s.records, r.authority.boot = r.workerBoot

/-- What the call files names one boot: what it registers, if that is admitted, and what it
    recovers. -/
def Operation.NamesOwner (F : Type) [ScoreArith F] (op : Operation) (d : Directory) : Prop :=
  match op with
  | .registerCache cache =>
      (Operation.registerCache cache).Accepted F d → cache.authority.boot = cache.workerBoot
  | .registerLocation loc =>
      (Operation.registerLocation loc).Accepted F d → loc.authority.boot = loc.workerBoot
  | .registerEntry record _ =>
      d.checkRegistration record = none → record.authority.boot = record.workerBoot
  | .recoverFromBuffer buf => ∀ s, acceptedSnapshot buf = some s → s.OneIncarnation
  | _ => True

/-! ## 2. One call -/

section Call

variable {F : Type} [ScoreArith F] {d : Directory} {op : Operation}

/-- Adjusting what is found keeps what the adjustment keeps. -/
theorem forall_find_map {α : Type} {P : α → Prop} {before behind : Option α} {b : α → Bool}
    {f : α → α} (heq : behind = before.map fun x => if b x then f x else x)
    (hf : ∀ x, P x → P (f x)) (hold : ∀ x, before = some x → P x) :
    ∀ x, behind = some x → P x := by
  intro x hx
  rw [heq] at hx
  obtain ⟨y, hy, rfl⟩ := Option.map_eq_some_iff.mp hx
  split
  · exact hf y (hold y hy)
  · exact hold y hy

/-- An update of a cache leaves its two boots. -/
theorem cache_boots_updated {write : CacheDescriptor → CacheDescriptor}
    {hwrite : ∀ c, (write c).cacheId = c.cacheId} {cid : CacheId} {env : AuthorityEnvelope}
    (hboots : ∀ c, c.authority.boot = c.workerBoot →
      (write c).authority.boot = (write c).workerBoot)
    {id : CacheId} (hd : ∀ c, d.caches.find id = some c → c.authority.boot = c.workerBoot) :
    ∀ c, (updateCache write hwrite cid env d).2.caches.find id = some c →
      c.authority.boot = c.workerBoot := by
  rcases @updateCache_cases write hwrite cid env d with ⟨f, hend⟩ | ⟨_, _, _, hend⟩
  · rw [hend]
    exact hd
  · rw [hend]
    have hfind := KeyedMap.find_adjust d.caches (fun c => c.cacheId == cid) (fencedCache write env)
      hwrite id
    exact forall_find_map hfind hboots hd

/-- Calls that register no cache leave the boots of the caches. -/
theorem cache_boots_step (hop : op.isRecovery = false)
    (hreg : ∀ cache, op ≠ .registerCache cache) {id : CacheId}
    (hd : ∀ c, d.caches.find id = some c → c.authority.boot = c.workerBoot) :
    ∀ c, (op.step F d).caches.find id = some c → c.authority.boot = c.workerBoot := by
  have hquiet (h : op.onCaches = false) :
      ∀ c, (op.step F d).caches.find id = some c → c.authority.boot = c.workerBoot := by
    rw [caches_step F h]
    exact hd
  cases op with
  | registerCache cache => exact absurd rfl (hreg cache)
  | recoverFromBuffer buf => cases hop
  | onWorkerLoss b reason => exact forall_find_map (find_cache_lost b reason id) (fun _ h => h) hd
  | invalidateCache cid env reason clk =>
      exact forall_find_map (find_cache_closed cid env reason clk id) (fun _ h => h) hd
  | updateCacheHealth cid h reach env =>
      refine cache_boots_updated ?_ hd
      exact fun _ h => h
  | updateCacheCapacity cid capacity free env =>
      refine cache_boots_updated ?_ hd
      exact fun _ h => h
  | _ => exact hquiet rfl

/-- Calls that register no location leave the boots of the locations. -/
theorem location_boots_step (hop : op.isRecovery = false)
    (hreg : ∀ loc, op ≠ .registerLocation loc) {id : LocationId}
    (hd : ∀ l, d.locations.find id = some l → l.authority.boot = l.workerBoot) :
    ∀ l, (op.step F d).locations.find id = some l → l.authority.boot = l.workerBoot := by
  have hquiet (h : op.onLocations = false) :
      ∀ l, (op.step F d).locations.find id = some l → l.authority.boot = l.workerBoot := by
    rw [locations_step F h]
    exact hd
  cases op with
  | registerLocation loc => exact absurd rfl (hreg loc)
  | recoverFromBuffer buf => cases hop
  | onWorkerLoss b reason =>
      exact forall_find_map (find_location_lost b reason id) (fun _ h => h) hd
  | invalidateLocation loc env reason clk =>
      exact forall_find_map (find_location_closed loc env reason clk id) (fun _ h => h) hd
  | _ => exact hquiet rfl

/-- Calls that register no record leave the boots of the records. -/
theorem record_boots_step (hop : op.isRecovery = false) (happ : op.appended d = [])
    (hd : ∀ r ∈ d.records, r.authority.boot = r.workerBoot) :
    ∀ r ∈ (op.step F d).records, r.authority.boot = r.workerBoot := by
  refine forall_records_step F hop (fun r hr r' hedited => ?_) fun r hr => ?_
  · have hguarded := guarded_edited hedited
    exact hguarded.boot.trans ((hd r hr).trans hguarded.workerBoot.symm)
  · rw [happ] at hr
    cases hr

/-- **What an accepted snapshot installs names one boot exactly when the snapshot does.** -/
theorem oneIncarnation_install {s : Snapshot} (hs : s.Sound) :
    s.OneIncarnation ↔ OneIncarnation (d.install s) := by
  have hlocations (id : LocationId) : (d.install s).locations.find id =
      ((KeyedMap.ofList LocationDescriptor.locationId s.locations).find id).map recoverLocation :=
    KeyedMap.find_adjust_all _ recoverLocation (fun _ => rfl) id
  constructor
  · intro h
    refine ⟨fun id c hc => ?_, fun id l hl => ?_, List.forall_mem_map.mpr h.records⟩
    · exact h.caches c ((KeyedMap.find_ofList_eq_some hs.cacheIds).mp hc).1
    · rw [hlocations] at hl
      obtain ⟨x, hx, rfl⟩ := Option.map_eq_some_iff.mp hl
      exact h.locations x ((KeyedMap.find_ofList_eq_some hs.locationIds).mp hx).1
  · intro h
    refine ⟨fun c hc => ?_, fun l hl => ?_, List.forall_mem_map.mp h.records⟩
    · exact h.caches _ c ((KeyedMap.find_ofList_eq_some hs.cacheIds).mpr ⟨hc, rfl⟩)
    · have hfind := (KeyedMap.find_ofList_eq_some hs.locationIds).mpr ⟨hl, rfl⟩
      exact h.locations l.locationId (recoverLocation l) (by rw [hlocations, hfind]; rfl)

theorem registerCache_iff {cache : CacheDescriptor} (hd : OneIncarnation d) :
    (Operation.registerCache cache).NamesOwner F d ↔
      OneIncarnation ((Operation.registerCache cache).step F d) := by
  refine accepted_iff (P := OneIncarnation) rfl (by simp) hd fun hacc => ?_
  constructor
  · intro hboot
    refine ⟨fun id c hc => ?_, fun id => location_boots_step rfl (by simp) (hd.locations id),
      record_boots_step rfl rfl hd.records⟩
    rw [find_cache_registered] at hc
    split at hc
    · cases hc
      exact hboot
    · exact hd.caches id c hc
  · intro h
    refine h.caches cache.cacheId cache ?_
    rw [find_cache_registered, if_pos ⟨hacc, rfl⟩]

theorem registerLocation_iff {loc : LocationDescriptor} (hd : OneIncarnation d) :
    (Operation.registerLocation loc).NamesOwner F d ↔
      OneIncarnation ((Operation.registerLocation loc).step F d) := by
  refine accepted_iff (P := OneIncarnation) rfl (by simp) hd fun hacc => ?_
  constructor
  · intro hboot
    refine ⟨fun id => cache_boots_step rfl (by simp) (hd.caches id), fun id l hl => ?_,
      record_boots_step rfl rfl hd.records⟩
    rw [find_location_registered] at hl
    split at hl
    · cases hl
      exact hboot
    · exact hd.locations id l hl
  · intro h
    refine h.locations loc.locationId loc ?_
    rw [find_location_registered, if_pos ⟨hacc, rfl⟩]

theorem registerEntry_iff {record : DirectoryRecord} {clk : Nat → TimestampNs}
    (hd : OneIncarnation d) :
    (Operation.registerEntry record clk).NamesOwner F d ↔
      OneIncarnation ((Operation.registerEntry record clk).step F d) := by
  have hrecords := @registration_iff F _ (fun r => r.authority.boot = r.workerBoot) d record clk
    hd.records hd.records
  constructor
  · intro h
    exact ⟨fun id => cache_boots_step rfl (by simp) (hd.caches id),
      fun id => location_boots_step rfl (by simp) (hd.locations id), hrecords.mp h⟩
  · intro h
    exact hrecords.mpr h.records

/-- **One call leaves owner and authority one incarnation exactly when what it files names one
    boot.** -/
theorem namesOwner_iff (op : Operation) (d : Directory) (hd : OneIncarnation d) :
    op.NamesOwner F d ↔ OneIncarnation (op.step F d) := by
  have hquiet (hop : op.isRecovery = false) (hcache : ∀ cache, op ≠ .registerCache cache)
      (hloc : ∀ loc, op ≠ .registerLocation loc) (happ : op.appended d = []) :
      OneIncarnation (op.step F d) :=
    ⟨fun id => cache_boots_step hop hcache (hd.caches id),
      fun id => location_boots_step hop hloc (hd.locations id),
      record_boots_step hop happ hd.records⟩
  cases op with
  | registerCache cache => exact registerCache_iff hd
  | registerLocation loc => exact registerLocation_iff hd
  | registerEntry record clk => exact registerEntry_iff hd
  | recoverFromBuffer buf =>
      refine recovery_iff (P := OneIncarnation) hd fun s hs => ?_
      exact oneIncarnation_install (problem_eq_none.mp (acceptedSnapshot_eq_some.mp hs).2)
  | _ => exact iff_of_true trivial (hquiet rfl (by simp) (by simp) rfl)

end Call

/-! ## 3. Runs -/

theorem oneIncarnation_empty : OneIncarnation {} := by
  refine ⟨fun id c hc => ?_, fun id l hl => ?_, fun r hr => (List.not_mem_nil hr).elim⟩
  · cases hc
  · cases hl

/-- The snapshot of a directory that names one boot does too. -/
theorem oneIncarnation_snapshotOf {d : Directory} (o : MapOrders) (hd : OneIncarnation d) :
    (d.snapshotOf o).OneIncarnation := by
  refine ⟨fun c hc => ?_, fun l hl => ?_, List.forall_mem_map.mpr hd.records⟩
  · have hmem : c ∈ d.caches.values := (o.caches.perm _).mem_iff.mp hc
    exact hd.caches c.cacheId c (KeyedMap.find_eq_some.mpr ⟨hmem, rfl⟩)
  · obtain ⟨x, hx, rfl⟩ := List.mem_map.mp hl
    have hmem : x ∈ d.locations.values := (o.locations.perm _).mem_iff.mp hx
    exact hd.locations x.locationId x (KeyedMap.find_eq_some.mpr ⟨hmem, rfl⟩)

/-- **Owner and authority are one incarnation in every state reached exactly along the runs whose
    calls all file what names one boot.** The recovery of a directory's own snapshot, in whatever
    state it comes, is such a call; and where they are one, the boot that may update a record is
    the boot whose loss marks it. -/
theorem incarnations_iff (F : Type) [ScoreArith F] :
    (∀ ops : List Operation,
      Follows (Operation.step F) (Operation.NamesOwner F) {} ops ↔
        ∀ d, Reached F ops d → OneIncarnation d) ∧
      (∀ (d : Directory) (o : MapOrders), d.SizesFit → OneIncarnation d → ∀ t : Directory,
        (Operation.recoverFromBuffer (d.saveToBuffer o).2).NamesOwner F t) ∧
      ∀ d : Directory, OneIncarnation d → ∀ r ∈ d.records, ∀ env : AuthorityEnvelope,
        d.checkUpdateAuthority r env = none → r.workerBoot = env.boot := by
  refine ⟨fun ops => ?_, fun d o hfit hd t s hs => ?_, fun d hd r hr env henv => ?_⟩
  · exact follows_iff_visited namesOwner_iff ops {} oneIncarnation_empty
  · rw [accepted_saved hfit hs]
    exact oneIncarnation_snapshotOf o hd
  · exact (hd.records r hr).symm.trans (authorised_iff.mp henv).2.1

/-! ## 4. Two workers -/

/-- Worker 1 attaches a copy, all under its boot; worker 2 is live. -/
def twoWorkers : List Operation :=
  [.registerWorkerSession attachedSession,
    .registerWorkerSession { boot := ⟨2⟩, worker := ⟨2⟩ },
    .registerCache { attachedCache ⟨1⟩ ⟨1⟩ with authority := { epoch := ⟨1⟩, boot := ⟨1⟩ } },
    .registerLocation { attachedLocation ⟨1⟩ ⟨1⟩ with authority := { epoch := ⟨1⟩, boot := ⟨1⟩ } },
    .registerReplica (attachedReplica ⟨1⟩ ⟨1⟩ ⟨1⟩ ⟨1⟩)]

/-- Worker 2 registers a cache, a location and the record in the name of boot 1. -/
def inOthersName : List Operation :=
  [.registerCache { attachedCache ⟨1⟩ ⟨2⟩ with authority := { epoch := ⟨1⟩, boot := ⟨2⟩ } },
    .registerLocation { attachedLocation ⟨1⟩ ⟨2⟩ with authority := { epoch := ⟨1⟩, boot := ⟨2⟩ } },
    .registerEntry { copyRecord ⟨1⟩ ⟨1⟩ with authority := { epoch := ⟨1⟩, boot := ⟨2⟩ } }
      fun _ => 1]

def twoNames : Directory := after (Operation.step Float) {} (twoWorkers ++ inOthersName)

/-- **The counterexample**: all three are on file, owned by boot 1 under the authority of boot 2;
    boot 2 may update the record, boot 1 may not. -/
theorem owner_is_not_authority :
    OwnReached Float twoNames ∧ ¬ OneIncarnation twoNames ∧
      (twoNames.caches.find ⟨2⟩).map (fun c => (c.workerBoot, c.authority.boot)) =
        some (⟨1⟩, ⟨2⟩) ∧
      (twoNames.locations.find ⟨2⟩).map (fun l => (l.workerBoot, l.authority.boot)) =
        some (⟨1⟩, ⟨2⟩) ∧
      twoNames.records.map (fun r => (r.workerBoot, r.authority.boot)) = [(⟨1⟩, ⟨2⟩)] ∧
      (Operation.updateHealth ⟨1⟩ .degraded { epoch := ⟨1⟩, boot := ⟨2⟩ } 2).Accepted Float
        twoNames ∧
      ¬ (Operation.updateHealth ⟨1⟩ .degraded { epoch := ⟨1⟩, boot := ⟨1⟩ } 2).Accepted Float
        twoNames := by
  have hrecord : ∃ r ∈ twoNames.records, r.authority.boot ≠ r.workerBoot := by decide +kernel
  obtain ⟨r, hr, hother⟩ := hrecord
  exact ⟨ownReached_after _ _ (by decide) .start, fun h => hother (h.records r hr),
    by decide +kernel, by decide +kernel, by decide +kernel, by decide +kernel, by decide +kernel⟩

theorem incarnations_twoWorkers :
    OneIncarnation (after (Operation.step Float) {} twoWorkers) ∧
      ∀ t : Directory, (Operation.recoverFromBuffer
        (({} : Directory).saveToBuffer .stored).2).NamesOwner Float t := by
  have hfollows : Follows (Operation.step Float) (Operation.NamesOwner Float) {} twoWorkers :=
    ⟨trivial, trivial, fun _ => rfl, fun _ => rfl, trivial, trivial⟩
  have hempty : ({} : Directory).Restartable := by decide +kernel
  exact ⟨((incarnations_iff Float).1 twoWorkers).mp hfollows _ (after_mem_visited _ _ _),
    (incarnations_iff Float).2.1 {} .stored (sizesFit_of_limits hempty.counts hempty.strings)
      oneIncarnation_empty⟩

end CacheDirectory
