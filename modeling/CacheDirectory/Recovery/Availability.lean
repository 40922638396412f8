/-
  File:      CacheDirectory/Recovery/Availability.lean
  Subject:   WHETHER QUERIES RETURN AVAILABLE COPIES ONLY.

  A copy rests on the session of its worker, on its cache and on its location, and each of these
  has a status of its own. The hard filters look at the record alone. So every call that writes a
  session or a descriptor has to leave no record servable that rests on it.

  * `Available` -- the session is live and neither descriptor is out of service;
  * `KeepsAvailable`, `keepsAvailable_iff` -- one call;
  * `only_available_found_iff` -- along runs, for all candidates of all queries.
-/
import CacheDirectory.Invariants.Descriptors
import CacheDirectory.Recovery.Serving

namespace CacheDirectory

open Library Directory

/-! ## 1. What a copy rests on -/

/-- A descriptor in service. -/
structure Usable (reach : Reachability) (h : Health) : Prop where
  reachable : reach ≠ .unreachable
  serving : h ≠ .unavailable

/-- The session of the record's boot is live, and cache and location are in service. -/
structure Available (d : Directory) (r : DirectoryRecord) : Prop where
  live : d.workerLive r.workerBoot = true
  cache : ∀ c, d.caches.find r.cache = some c → Usable c.reachability c.health
  location : ∀ l, d.locations.find r.location = some l → Usable l.reachability l.health

/-- Every servable record is available. -/
def OnlyAvailable (d : Directory) : Prop := OnlyServed (Available d) d

/-- The cache or the location of the record belongs to the boot. -/
def RestsOn (d : Directory) (b : WorkerBootId) (r : DirectoryRecord) : Prop :=
  (∃ c, d.caches.find r.cache = some c ∧ c.workerBoot = b) ∨
    ∃ l, d.locations.find r.location = some l ∧ l.workerBoot = b

/-- The call leaves no servable record on a session that is not live or a descriptor out of
    service: an accepted registration of one, or update of a cache, that puts it out of service
    finds no servable record there; the loss of a live boot finds no revivable record of the boot
    and no servable one of another boot that rests on it; an accepted snapshot has no revivable
    record; and what any other call makes servable is available. -/
def Operation.KeepsAvailable (F : Type) [ScoreArith F] (op : Operation) (d : Directory) : Prop :=
  match op with
  | .registerCache cache =>
      (Operation.registerCache cache).Accepted F d → ¬ Usable cache.reachability cache.health →
        ∀ r ∈ d.records, Servable r → r.cache ≠ cache.cacheId
  | .registerLocation loc =>
      (Operation.registerLocation loc).Accepted F d → ¬ Usable loc.reachability loc.health →
        ∀ r ∈ d.records, Servable r → r.location ≠ loc.locationId
  | .updateCacheHealth id h reach env =>
      (Operation.updateCacheHealth id h reach env).Accepted F d → ¬ Usable reach h →
        ∀ r ∈ d.records, Servable r → r.cache ≠ id
  | .onWorkerLoss b _ =>
      d.workerLive b = true → ∀ r ∈ d.records, (r.workerBoot = b → ¬ Revivable r) ∧
        (r.workerBoot ≠ b → Servable r → ¬ RestsOn d b r)
  | .recoverFromBuffer buf =>
      ∀ s, acceptedSnapshot buf = some s → ∀ r ∈ s.records, ¬ Revivable r
  | op => op.Vouches (Available d) d

section Places

variable {d d' : Directory}

theorem plain_available (d : Directory) : Plain (Available d) :=
  ⟨fun _ _ _ => ⟨fun h => ⟨h.1, h.2, h.3⟩, fun h => ⟨h.1, h.2, h.3⟩⟩,
    fun _ _ _ _ => ⟨fun h => ⟨h.1, h.2, h.3⟩, fun h => ⟨h.1, h.2, h.3⟩⟩⟩

/-- Nothing but sessions and descriptors counts. -/
theorem available_congr (hlive : ∀ b, d'.workerLive b = d.workerLive b)
    (h : DescriptorsKept d d') : Available d' = Available d := by
  funext r
  refine propext ⟨fun ha => ⟨?_, ?_, ?_⟩, fun ha => ⟨?_, ?_, ?_⟩⟩
  · exact (hlive _).symm.trans ha.live
  · exact h.caches ▸ ha.cache
  · exact h.locations ▸ ha.location
  · exact (hlive _).trans ha.live
  · exact h.caches.symm ▸ ha.cache
  · exact h.locations.symm ▸ ha.location

/-- Where only caches change, they decide. -/
theorem onlyAvailable_of_caches (hrecords : d'.records = d.records)
    (hlive : ∀ b, d'.workerLive b = d.workerLive b) (hlocations : d'.locations = d.locations)
    (hd : OnlyAvailable d) :
    OnlyAvailable d' ↔ ∀ r ∈ d.records, Servable r →
      ∀ c, d'.caches.find r.cache = some c → Usable c.reachability c.health := by
  unfold OnlyAvailable OnlyServed
  rw [hrecords]
  refine forall₂_congr fun r hr => forall_congr' fun hserved => ⟨fun h => h.cache, fun h => ?_⟩
  have hbefore := hd r hr hserved
  exact ⟨(hlive _).trans hbefore.live, h, hlocations.symm ▸ hbefore.location⟩

/-- Where only locations change, they decide. -/
theorem onlyAvailable_of_locations (hrecords : d'.records = d.records)
    (hlive : ∀ b, d'.workerLive b = d.workerLive b) (hcaches : d'.caches = d.caches)
    (hd : OnlyAvailable d) :
    OnlyAvailable d' ↔ ∀ r ∈ d.records, Servable r →
      ∀ l, d'.locations.find r.location = some l → Usable l.reachability l.health := by
  unfold OnlyAvailable OnlyServed
  rw [hrecords]
  refine forall₂_congr fun r hr => forall_congr' fun hserved => ⟨fun h => h.location, fun h => ?_⟩
  have hbefore := hd r hr hserved
  exact ⟨(hlive _).trans hbefore.live, hcaches.symm ▸ hbefore.cache, h⟩

end Places

/-! ## 2. One call -/

section Step

variable {F : Type} [ScoreArith F] {d : Directory}

/-- Filing a descriptor leaves those the servable records name in order exactly when it is in order
    or none of them names it. -/
theorem served_put_iff {κ ν : Type} {key : ν → κ} [DecidableEq κ] {m : KeyedMap key} {w : ν}
    {Ok : ν → Prop} {name : DirectoryRecord → κ} {records : List DirectoryRecord}
    (hold : ∀ r ∈ records, Servable r → ∀ v, m.find (name r) = some v → Ok v) :
    (¬ Ok w → ∀ r ∈ records, Servable r → name r ≠ key w) ↔
      ∀ r ∈ records, Servable r → ∀ v, (m.put w).find (name r) = some v → Ok v := by
  constructor
  · intro hgood r hr hserved
    refine (KeyedMap.forall_find_put (hold r hr hserved)).mpr fun hkey => ?_
    by_contra hbad
    exact hgood hbad r hr hserved hkey.symm
  · intro h hbad r hr hserved hkey
    exact hbad ((KeyedMap.forall_find_put (hold r hr hserved)).mp (h r hr hserved) hkey.symm)

theorem keepsAvailable_registerCache {cache : CacheDescriptor} (hd : OnlyAvailable d) :
    (Operation.registerCache cache).KeepsAvailable F d ↔
      OnlyAvailable ((Operation.registerCache cache).step F d) := by
  refine accepted_iff (P := OnlyAvailable) rfl (by simp) hd fun hacc => ?_
  have hbehind : (d.registerCache cache).2 = _ := (accepted_report_guarded hacc).2
  have hstep : OnlyAvailable ((Operation.registerCache cache).step F d) ↔
      ∀ r ∈ d.records, Servable r →
        ∀ c, (d.caches.put cache).find r.cache = some c → Usable c.reachability c.health := by
    show OnlyAvailable (d.registerCache cache).2 ↔ _
    rw [hbehind]
    exact onlyAvailable_of_caches rfl (fun _ => rfl) rfl hd
  rw [hstep]
  exact served_put_iff fun r hr hserved => (hd r hr hserved).cache

theorem keepsAvailable_registerLocation {loc : LocationDescriptor} (hd : OnlyAvailable d) :
    (Operation.registerLocation loc).KeepsAvailable F d ↔
      OnlyAvailable ((Operation.registerLocation loc).step F d) := by
  refine accepted_iff (P := OnlyAvailable) rfl (by simp) hd fun hacc => ?_
  have hbehind : (d.registerLocation loc).2 = _ := (accepted_report_guarded hacc).2
  have hstep : OnlyAvailable ((Operation.registerLocation loc).step F d) ↔
      ∀ r ∈ d.records, Servable r →
        ∀ l, (d.locations.put loc).find r.location = some l → Usable l.reachability l.health := by
    show OnlyAvailable (d.registerLocation loc).2 ↔ _
    rw [hbehind]
    exact onlyAvailable_of_locations rfl (fun _ => rfl) rfl hd
  rw [hstep]
  exact served_put_iff fun r hr hserved => (hd r hr hserved).location

/-- An update of a cache, by what it makes of the descriptor. -/
theorem onlyAvailable_updateCache {write : CacheDescriptor → CacheDescriptor}
    {hwrite : ∀ c, (write c).cacheId = c.cacheId} {id : CacheId} {env : AuthorityEnvelope}
    (hd : OnlyAvailable d)
    (hacc : (Operation.report (updateCache write hwrite id env d)).1 = none) :
    OnlyAvailable (updateCache write hwrite id env d).2 ↔
      ∀ r ∈ d.records, Servable r → r.cache = id → ∀ c, d.caches.find id = some c →
        Usable (write c).reachability (write c).health := by
  rcases @updateCache_cases write hwrite id env d with ⟨f, hend⟩ | ⟨c, _, _, hend⟩
  · rw [hend] at hacc
    cases hacc
  · have hrecords : (updateCache write hwrite id env d).2.records = d.records := by
      rw [hend]
      rfl
    have hlocations : (updateCache write hwrite id env d).2.locations = d.locations := by
      rw [hend]
      rfl
    have hcaches : (updateCache write hwrite id env d).2.caches =
        d.caches.adjust (fun c => c.cacheId == id) (fencedCache write env) hwrite := by
      rw [hend]
      rfl
    rw [onlyAvailable_of_caches hrecords
      (fun b => (authorityKept_updateCache d hwrite id env).workerLive b) hlocations hd, hcaches]
    refine forall₂_congr fun r hr => forall_congr' fun hserved => ?_
    refine KeyedMap.forall_find_adjust.trans ⟨?_, ?_⟩
    · rintro h rfl c hc
      have hkey := (KeyedMap.find_eq_some.mp hc).2
      have hbehind := h c hc
      rwa [if_pos (beq_iff_eq.mpr hkey)] at hbehind
    · intro h c hc
      split
      · next hkey =>
          have hid : r.cache = id := (KeyedMap.find_eq_some.mp hc).2.symm.trans (beq_iff_eq.mp hkey)
          exact h hid c (hid ▸ hc)
      · exact (hd r hr hserved).cache c hc

theorem keepsAvailable_updateCacheHealth {id : CacheId} {h : Health} {reach : Reachability}
    {env : AuthorityEnvelope} (hd : OnlyAvailable d) :
    (Operation.updateCacheHealth id h reach env).KeepsAvailable F d ↔
      OnlyAvailable ((Operation.updateCacheHealth id h reach env).step F d) := by
  refine accepted_iff (P := OnlyAvailable) rfl (by simp) hd fun hacc => ?_
  refine Iff.trans ?_ (onlyAvailable_updateCache hd hacc).symm
  obtain ⟨c, hc, _⟩ := accepted_updateCache.mp hacc
  constructor
  · intro hgood r hr hserved hkey _ _
    by_contra hbad
    exact hgood hbad r hr hserved hkey
  · intro hall hbad r hr hserved hkey
    exact hbad (hall r hr hserved hkey c hc)

theorem onlyAvailable_updateCacheCapacity {id : CacheId} {capacity free : UInt64}
    {env : AuthorityEnvelope} (hd : OnlyAvailable d) :
    OnlyAvailable ((Operation.updateCacheCapacity id capacity free env).step F d) := by
  by_cases hacc : (Operation.updateCacheCapacity id capacity free env).Accepted F d
  · refine (onlyAvailable_updateCache hd hacc).mpr fun r hr hserved hkey c hc => ?_
    exact (hd r hr hserved).cache c (hkey ▸ hc)
  · rw [rejected_step rfl (by simp) hacc]
    exact hd

/-- The loss of a boot takes from the copies of other boots those that rest on it. -/
theorem available_lost_iff {b : WorkerBootId} {reason : Bytes} {r : DirectoryRecord}
    (hlive : d.workerLive b = true) (hother : r.workerBoot ≠ b) (ha : Available d r) :
    Available (d.onWorkerLoss b reason).2 r ↔ ¬ RestsOn d b r := by
  obtain ⟨hcaches, hlocations⟩ := descriptors_onWorkerLoss reason hlive
  constructor
  · rintro h (⟨c, hc, hboot⟩ | ⟨l, hl, hboot⟩)
    · have hcache := h.cache
      rw [hcaches, KeyedMap.forall_find_adjust] at hcache
      have husable := hcache c hc
      rw [if_pos (beq_iff_eq.mpr hboot)] at husable
      exact husable.serving rfl
    · have hlocation := h.location
      rw [hlocations, KeyedMap.forall_find_adjust] at hlocation
      have husable := hlocation l hl
      rw [if_pos (beq_iff_eq.mpr hboot)] at husable
      exact husable.serving rfl
  · intro hrests
    refine ⟨(workerLive_lost b reason).mpr ⟨ha.live, hother⟩, ?_, ?_⟩
    · rw [hcaches, KeyedMap.forall_find_adjust]
      intro c hc
      rw [if_neg fun h => hrests (.inl ⟨c, hc, beq_iff_eq.mp h⟩)]
      exact ha.cache c hc
    · rw [hlocations, KeyedMap.forall_find_adjust]
      intro l hl
      rw [if_neg fun h => hrests (.inr ⟨l, hl, beq_iff_eq.mp h⟩)]
      exact ha.location l hl

theorem keepsAvailable_onWorkerLoss {b : WorkerBootId} {reason : Bytes} (hd : OnlyAvailable d) :
    (Operation.onWorkerLoss b reason).KeepsAvailable F d ↔
      OnlyAvailable ((Operation.onWorkerLoss b reason).step F d) := by
  show _ ↔ OnlyAvailable (d.onWorkerLoss b reason).2
  by_cases hlive : d.workerLive b = true
  · have hdead : (d.onWorkerLoss b reason).2.workerLive b ≠ true := fun h =>
      ((workerLive_lost b reason).mp h).2 rfl
    unfold OnlyAvailable OnlyServed
    rw [records_onWorkerLoss, List.forall_mem_map]
    refine (imp_iff_right hlive).trans (forall₂_congr fun r hr => ?_)
    by_cases hboot : r.workerBoot = b
    · rw [lose_of_hit hlive hboot, servable_loseRecord]
      have hno : ¬ Available (d.onWorkerLoss b reason).2 (loseRecord r) := by
        intro h
        have hsame : (loseRecord r).workerBoot = b :=
          (congrArg (·.workerBoot) (kept_loseRecord r).core).trans hboot
        exact hdead (hsame ▸ h.live)
      constructor
      · rintro ⟨hrev, _⟩ h
        exact absurd h (hrev hboot)
      · intro h
        exact ⟨fun _ hrev => hno (h hrev), fun hother => absurd hboot hother⟩
    · have hkeep : lose d b r = r := if_neg (by simp [hboot])
      rw [hkeep, and_iff_right (fun h => absurd h hboot), imp_iff_right hboot]
      refine forall_congr' fun hserved => ?_
      exact (available_lost_iff hlive hboot (hd r hr hserved)).symm
  · rw [onWorkerLoss_idle hlive]
    exact iff_of_true (fun h => absurd h hlive) hd

/-- An invalidation leaves current only what its loop does not select. -/
theorem onlyAvailable_invalidateWith {env : AuthorityEnvelope} {affected : UInt32}
    {message : Bytes} {act : Directory → Directory} {sel : DirectoryRecord → Bool}
    {clk : Nat → TimestampNs} (also : DirectoryRecord → DirectoryRecord)
    (halso : ∀ r, (also r).current = r.current)
    (hact : (act d).records = invalidateRecords sel also clk d.records)
    (hplaces : ∀ r, sel r = false → Available d r → Available (act d) r) (hd : OnlyAvailable d) :
    OnlyAvailable (d.invalidateWith env affected message act).2 := by
  refine guarded_keeps (P := OnlyAvailable) hd fun _ => ?_
  have hkept : ∀ r ∈ (act d).records, Servable r → Available (act d) r := by
    intro r' hr' hserved
    rw [hact] at hr'
    obtain ⟨i, hi, rfl⟩ := List.mem_mapIdx.mp hr'
    by_cases hboth : (sel d.records[i] && d.records[i].current) = true
    · rw [if_pos hboth] at hserved
      have hcur := (servable_iff.mp hserved).1
      rw [halso] at hcur
      cases hcur
    · rw [if_neg hboth] at hserved ⊢
      have hmem := List.getElem_mem hi
      refine hplaces _ ?_ (hd _ hmem hserved)
      rw [(servable_iff.mp hserved).1] at hboth
      simpa using hboth
  exact fun r hr hserved => ⟨(hkept r hr hserved).1, (hkept r hr hserved).2, (hkept r hr hserved).3⟩

theorem onlyAvailable_invalidateCache {c : CacheId} {env : AuthorityEnvelope} {reason : Bytes}
    {clk : Nat → TimestampNs} (hd : OnlyAvailable d) :
    OnlyAvailable ((Operation.invalidateCache c env reason clk).step F d) := by
  refine onlyAvailable_invalidateWith id (fun _ => rfl) rfl (fun r hsel ha => ?_) hd
  refine ⟨ha.live, fun cd hcd => ha.cache cd ?_, ha.location⟩
  rwa [KeyedMap.find_adjust_other _ hsel] at hcd

theorem onlyAvailable_invalidateLocation {loc : LocationId} {env : AuthorityEnvelope}
    {reason : Bytes} {clk : Nat → TimestampNs} (hd : OnlyAvailable d) :
    OnlyAvailable ((Operation.invalidateLocation loc env reason clk).step F d) := by
  refine onlyAvailable_invalidateWith (fun r => { r with reachability := .unreachable })
    (fun _ => rfl) rfl (fun r hsel ha => ?_) hd
  refine ⟨ha.live, ha.cache, fun l hl => ha.location l ?_⟩
  rwa [KeyedMap.find_adjust_other _ hsel] at hl

theorem onlyAvailable_registerWorkerSession {session : WorkerSession} (hd : OnlyAvailable d) :
    OnlyAvailable ((Operation.registerWorkerSession session).step F d) := by
  have hrecords : ((Operation.registerWorkerSession session).step F d).records = d.records :=
    guarded_keeps (P := fun d' : Directory => d'.records = d.records) rfl fun _ => rfl
  have hdesc : DescriptorsKept d ((Operation.registerWorkerSession session).step F d) :=
    descriptorsKept_step F rfl d
  intro r hr hserved
  rw [hrecords] at hr
  have ha := hd r hr hserved
  exact ⟨(workerLive_registered session).mpr (.inl ha.live), hdesc.caches.symm ▸ ha.cache,
    hdesc.locations.symm ▸ ha.location⟩

/-- No session is live behind a recovery. -/
theorem keepsAvailable_recoverFromBuffer {buf : Bytes} (hd : OnlyAvailable d) :
    (Operation.recoverFromBuffer buf).KeepsAvailable F d ↔
      OnlyAvailable ((Operation.recoverFromBuffer buf).step F d) := by
  refine recovery_iff (P := OnlyAvailable) hd fun s _ => Iff.symm ?_
  refine List.forall_mem_map.trans (forall₂_congr fun r _ => ?_)
  rw [servable_recoverRecord]
  exact imp_iff_not fun h => by cases h.live

/-- The other calls write no descriptor, and leave the sessions. -/
theorem keepsAvailable_vouches {op : Operation} (hdesc : op.onDescriptors = false)
    (hsess : op.onSessions = false)
    (hcond : op.KeepsAvailable F d ↔ op.Vouches (Available d) d) (hd : OnlyAvailable d) :
    op.KeepsAvailable F d ↔ OnlyAvailable (op.step F d) := by
  unfold OnlyAvailable
  rw [hcond, available_congr (fun b => (authorityKept_step F hsess d).workerLive b)
    (descriptorsKept_step F hdesc d)]
  exact vouches_iff (plain_available d) op d hd

/-- **A call leaves every servable record available exactly when it keeps it so.** -/
theorem keepsAvailable_iff (op : Operation) (d : Directory) (hd : OnlyAvailable d) :
    op.KeepsAvailable F d ↔ OnlyAvailable (op.step F d) := by
  cases op with
  | registerWorkerSession session =>
      exact iff_of_true (fun _ _ _ hev => by cases hev) (onlyAvailable_registerWorkerSession hd)
  | onWorkerLoss b reason => exact keepsAvailable_onWorkerLoss hd
  | registerCache cache => exact keepsAvailable_registerCache hd
  | registerLocation loc => exact keepsAvailable_registerLocation hd
  | updateCacheHealth id h reach env => exact keepsAvailable_updateCacheHealth hd
  | updateCacheCapacity id capacity free env =>
      exact iff_of_true (fun _ _ _ hev => by cases hev) (onlyAvailable_updateCacheCapacity hd)
  | invalidateLocation loc env reason clk =>
      exact iff_of_true (fun _ _ _ hev => by cases hev) (onlyAvailable_invalidateLocation hd)
  | invalidateCache c env reason clk =>
      exact iff_of_true (fun _ _ _ hev => by cases hev) (onlyAvailable_invalidateCache hd)
  | recoverFromBuffer buf => exact keepsAvailable_recoverFromBuffer hd
  | _ => exact keepsAvailable_vouches rfl rfl Iff.rfl hd

end Step

/-! ## 3. Runs -/

/-- **Queries return available copies only**, in every state reached, exactly along the runs whose
    calls all keep every servable record available. -/
theorem only_available_found_iff (F : Type) [ScoreArith F] (ops : List Operation) :
    Follows (Operation.step F) (Operation.KeepsAvailable F) {} ops ↔
      ∀ d, Reached F ops d → ∀ (order : Enumeration Nat) (q : DirectoryQuery)
        (res : QueryResult F), (d.query order q).1 = .ok res →
          ∀ c ∈ res.candidates, Available d c.record := by
  rw [follows_iff_visited keepsAvailable_iff ops {} fun _ h => (List.not_mem_nil h).elim]
  exact forall₂_congr fun d hd => onlyServed_iff F (indexFits_reached hd)

/-- The one copy, and its owner reports the cache UNAVAILABLE. -/
def cacheReported : List Operation :=
  registeredOnce ++ [.updateCacheHealth ⟨1⟩ .unavailable .unreachable { epoch := ⟨1⟩, boot := ⟨1⟩ }]

def cacheOut : Directory := after (Operation.step Float) {} cacheReported

/-- One copy in host memory, and its worker is lost. -/
def workerLostRun : List Operation := hiddenRun ++ [.onWorkerLoss ⟨1⟩ []]

def workerLost : Directory := after (Operation.step Float) {} workerLostRun

/-- **The counterexample**: a query selects a copy in the cache reported UNAVAILABLE, and one
    selects a copy of the lost worker. -/
theorem unavailable_copies_found :
    Reached Float cacheReported cacheOut ∧
      (Selects Float anyCopy cacheOut fun r =>
        (cacheOut.caches.find r.cache).map (fun c => (c.reachability, c.health)) =
          some (.unreachable, .unavailable)) ∧
      Reached Float workerLostRun workerLost ∧
      Selects Float anyCopy workerLost fun r => workerLost.workerLive r.workerBoot = false := by
  have hout : Reached Float cacheReported cacheOut := after_mem_visited _ _ _
  have hlost : Reached Float workerLostRun workerLost := after_mem_visited _ _ _
  exact ⟨hout, selects_of_all Float (indexFits_reached hout) (by decide +kernel)
      (by decide +kernel), hlost,
    selects_of_all Float (indexFits_reached hlost) (by decide +kernel) (by decide +kernel)⟩

end CacheDirectory
