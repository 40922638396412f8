/-
  File:      CacheDirectory/Invariants/Agreement.lean
  Subject:   WHETHER CURRENT RECORDS AGREE WITH THE DESCRIPTORS THEY POINT AT.

  `check_registration` compares a record with its cache, its location and its replica, once. The
  descriptors can be registered again: a location by its owner, compared by incarnation, fence
  and generation only; a replica by its boot, compared by nothing else.

  * `LocationAgrees`, `ReplicaAgrees`, `Agrees` -- a record and what it points at;
  * `agrees_admitted` -- what a registration has checked;
  * `keepsAgreement_iff` -- one call keeps every current record in agreement exactly when what it
    registers agrees with the current records that point at it;
  * `agreement_iff` -- along runs, and for snapshots of directories in agreement.
-/
import CacheDirectory.Invariants.Ownership
import CacheDirectory.Recovery.Epochs

namespace CacheDirectory

open Library Directory

/-! ## 1. A record and what it points at -/

/-- The location is where the record says it is. -/
structure LocationAgrees (l : LocationDescriptor) (r : DirectoryRecord) : Prop where
  node : l.node = r.node
  worker : l.worker = r.worker
  workerBoot : l.workerBoot = r.workerBoot
  domain : l.domain = r.domain

/-- The replica is the one of the record's location, cache and entry. -/
structure ReplicaAgrees (p : ReplicaDescriptor) (r : DirectoryRecord) : Prop where
  location : p.location = r.location
  cache : p.cache = r.cache
  entry : p.entry = r.entry

/-- All three descriptors are on file and agree with the record. -/
structure Agrees (d : Directory) (r : DirectoryRecord) : Prop where
  cache : ∃ c, d.caches.find r.cache = some c
  location : ∃ l, d.locations.find r.location = some l ∧ LocationAgrees l r
  replica : ∃ p, d.replicas.find r.replica = some p ∧ ReplicaAgrees p r

/-- Every current record agrees with its descriptors. -/
def AllAgree (d : Directory) : Prop := ∀ r ∈ d.records, r.current = true → Agrees d r

section Record

variable {d : Directory} {r r' : DirectoryRecord}

/-- Agreement does not look at what later calls edit in a record. -/
theorem agrees_core (h : core r' = core r) (ha : Agrees d r) : Agrees d r' := by
  have hcache : r'.cache = r.cache := congrArg (·.cache) h
  have hentry : r'.entry = r.entry := congrArg (·.entry) h
  have hlocation : r'.location = r.location := congrArg (·.location) h
  have hreplica : r'.replica = r.replica := congrArg (·.replica) h
  obtain ⟨l, hl, hagree⟩ := ha.location
  obtain ⟨p, hp, hsame⟩ := ha.replica
  refine ⟨by rw [hcache]; exact ha.cache, ⟨l, by rw [hlocation]; exact hl, ?_⟩,
    ⟨p, by rw [hreplica]; exact hp, ?_⟩⟩
  · exact ⟨hagree.node.trans (congrArg (·.node) h).symm,
      hagree.worker.trans (congrArg (·.worker) h).symm,
      hagree.workerBoot.trans (congrArg (·.workerBoot) h).symm,
      hagree.domain.trans (congrArg (·.domain) h).symm⟩
  · exact ⟨hsame.location.trans hlocation.symm, hsame.cache.trans hcache.symm,
      hsame.entry.trans hentry.symm⟩

/-- **What a registration has checked.** -/
theorem agrees_admitted (h : d.checkRegistration r = none) : Agrees d r := by
  have hall := firstFailure_eq_none.mp (checkRegistration_eq_none.mp h).1
  simp only [dependencyChecks, List.forall_mem_cons] at hall
  obtain ⟨_, _, _, _, _, _, _, hcache, hloc, hrep, hplace, hentry, howner, hdomain, _⟩ := hall
  obtain ⟨c, hc⟩ := Option.isSome_iff_exists.mp (Option.isNone_eq_false_iff.mp hcache)
  obtain ⟨l, hl⟩ := Option.isSome_iff_exists.mp (Option.isNone_eq_false_iff.mp hloc)
  obtain ⟨p, hp⟩ := Option.isSome_iff_exists.mp (Option.isNone_eq_false_iff.mp hrep)
  rw [hl, Option.any_some] at howner hdomain
  rw [hp, Option.any_some] at hplace hentry
  simp only [Bool.or_eq_false_iff, bne_eq_false_iff_eq] at howner hdomain hplace hentry
  exact ⟨⟨c, hc⟩, ⟨l, hl, howner.1.1, howner.1.2, howner.2, hdomain⟩,
    ⟨p, hp, hplace, hentry.1, hentry.2⟩⟩

theorem agrees_stamped {clk : Nat → TimestampNs} (ha : Agrees d r) :
    Agrees d (d.stamped r clk) := by
  obtain ⟨l, hl, hagree⟩ := ha.location
  obtain ⟨p, hp, hsame⟩ := ha.replica
  exact ⟨ha.cache, ⟨l, hl, hagree.node, hagree.worker, hagree.workerBoot, hagree.domain⟩,
    ⟨p, hp, hsame.location, hsame.cache, hsame.entry⟩⟩

end Record

/-! ## 2. Calls that leave the pointers -/

/-- A location before and after: the same place of the same incarnation. -/
structure SamePlace (l l' : LocationDescriptor) : Prop where
  node : l'.node = l.node
  worker : l'.worker = l.worker
  workerBoot : l'.workerBoot = l.workerBoot
  domain : l'.domain = l.domain

/-- What is on file stays on file, in its place. -/
structure PointersKept (d d' : Directory) : Prop where
  caches : ∀ id c, d.caches.find id = some c → ∃ c', d'.caches.find id = some c'
  locations : ∀ id l, d.locations.find id = some l →
    ∃ l', d'.locations.find id = some l' ∧ SamePlace l l'
  replicas : d'.replicas = d.replicas

/-- The call writes no replica, and of locations only their evidence. -/
def Operation.leavesPlaces : Operation → Bool
  | .registerLocation _ => false
  | .registerReplica _ => false
  | .recoverFromBuffer _ => false
  | _ => true

section Pointers

variable {F : Type} [ScoreArith F] {d d' : Directory} {op : Operation} {r : DirectoryRecord}

theorem agrees_kept (h : PointersKept d d') (ha : Agrees d r) : Agrees d' r := by
  obtain ⟨c, hc⟩ := ha.cache
  obtain ⟨l, hl, hagree⟩ := ha.location
  obtain ⟨l', hl', hplace⟩ := h.locations _ l hl
  refine ⟨h.caches _ c hc, ⟨l', hl', ?_⟩, by rw [h.replicas]; exact ha.replica⟩
  exact ⟨hplace.node.trans hagree.node, hplace.worker.trans hagree.worker,
    hplace.workerBoot.trans hagree.workerBoot, hplace.domain.trans hagree.domain⟩

/-- A cache on file stays on file. -/
theorem cache_kept (hop : op.isRecovery = false) {id : CacheId} {c : CacheDescriptor}
    (hc : d.caches.find id = some c) : ∃ c', (op.step F d).caches.find id = some c' := by
  obtain ⟨c', hc', _⟩ := guards_caches (F := F) hop hc
  exact ⟨c', hc'⟩

theorem samePlace_marked {l : LocationDescriptor} {b : Bool}
    {f : LocationDescriptor → LocationDescriptor} (h : SamePlace l (f l)) :
    SamePlace l (if b then f l else l) := by
  cases b with
  | true => exact h
  | false => exact ⟨rfl, rfl, rfl, rfl⟩

/-- Losses and invalidations leave a location in its place. -/
theorem location_kept (hop : op.leavesPlaces = true) {id : LocationId} {l : LocationDescriptor}
    (hl : d.locations.find id = some l) :
    ∃ l', (op.step F d).locations.find id = some l' ∧ SamePlace l l' := by
  have hquiet (h : op.onLocations = false) :
      ∃ l', (op.step F d).locations.find id = some l' ∧ SamePlace l l' := by
    rw [locations_step F h]
    exact ⟨l, hl, rfl, rfl, rfl, rfl⟩
  cases op with
  | onWorkerLoss b reason =>
      rw [find_location_lost, hl, Option.map_some]
      exact ⟨_, rfl, samePlace_marked ⟨rfl, rfl, rfl, rfl⟩⟩
  | invalidateLocation loc env reason clk =>
      rw [find_location_closed, hl, Option.map_some]
      exact ⟨_, rfl, samePlace_marked ⟨rfl, rfl, rfl, rfl⟩⟩
  | registerLocation loc => cases hop
  | registerReplica replica => cases hop
  | recoverFromBuffer buf => cases hop
  | _ => exact hquiet rfl

theorem pointersKept_step (F : Type) [ScoreArith F] {op : Operation}
    (hop : op.leavesPlaces = true) (d : Directory) : PointersKept d (op.step F d) := by
  have hrec : op.isRecovery = false := by
    cases op with
    | recoverFromBuffer buf => cases hop
    | _ => rfl
  have hrep : op.onReplicas = false := by
    cases op with
    | registerReplica replica => cases hop
    | recoverFromBuffer buf => cases hop
    | _ => rfl
  exact ⟨fun _ _ hc => cache_kept hrec hc, fun _ _ hl => location_kept hop hl,
    replicas_step F hrep d⟩

/-- **Every call that leaves the places keeps all in agreement**: what it registers has been
    compared, what it edits still points at the same. -/
theorem allAgree_step (F : Type) [ScoreArith F] {op : Operation} (hop : op.leavesPlaces = true)
    (hd : AllAgree d) : AllAgree (op.step F d) := by
  have hkept := pointersKept_step F hop d
  cases hadd : op.addsRecords with
  | false =>
      intro r' hr' hcur
      obtain ⟨r, hr, hsame⟩ := (recordsKept_step F op hadd d).origin hr'
      exact agrees_kept hkept (agrees_core hsame.core (hd r hr (hsame.current hcur)))
  | true =>
      cases op with
      | recoverFromBuffer buf => cases hop
      | registerEntry record clk =>
          have hbehind : ∀ r ∈ ((Operation.registerEntry record clk).step F d).records,
              r.current = true → Agrees d r := by
            refine (registration_iff F (P := fun r => r.current = true → Agrees d r) hd ?_).mp ?_
            · intro r _ h
              cases h
            · intro hcheck _
              exact agrees_stamped (agrees_admitted hcheck)
          exact fun r hr hcur => agrees_kept hkept (hbehind r hr hcur)
      | _ => cases hadd

end Pointers

/-! ## 3. Registrations of descriptors, and recovery -/

/-- Every current record of the snapshot agrees with descriptors of the snapshot. -/
def Snapshot.Agree (s : Snapshot) : Prop :=
  ∀ r ∈ s.records, r.current = true →
    (∃ c ∈ s.caches, c.cacheId = r.cache) ∧
      (∃ l ∈ s.locations, l.locationId = r.location ∧ LocationAgrees l r) ∧
      ∃ p ∈ s.replicas, p.replicaId = r.replica ∧ ReplicaAgrees p r

/-- What the call registers agrees with the current records that point at it, and what it recovers
    agrees with itself. -/
def Operation.KeepsAgreement (F : Type) [ScoreArith F] (op : Operation) (d : Directory) : Prop :=
  match op with
  | .registerLocation loc =>
      (Operation.registerLocation loc).Accepted F d → ∀ r ∈ d.records, r.current = true →
        r.location = loc.locationId →
        loc.node = r.node ∧ loc.worker = r.worker ∧ loc.domain = r.domain
  | .registerReplica replica =>
      (Operation.registerReplica replica).Accepted F d → ∀ r ∈ d.records, r.current = true →
        r.replica = replica.replicaId → ReplicaAgrees replica r
  | .recoverFromBuffer buf => ∀ s, acceptedSnapshot buf = some s → s.Agree
  | _ => True

section Exact

variable {F : Type} [ScoreArith F] {d : Directory}

theorem agrees_registerLocation {loc : LocationDescriptor}
    (hacc : (Operation.registerLocation loc).Accepted F d) {r : DirectoryRecord}
    (ha : Agrees d r) :
    (r.location = loc.locationId →
        loc.node = r.node ∧ loc.worker = r.worker ∧ loc.domain = r.domain) ↔
      Agrees ((Operation.registerLocation loc).step F d) r := by
  have hcaches : ((Operation.registerLocation loc).step F d).caches = d.caches :=
    caches_step F rfl d
  have hreplicas : ((Operation.registerLocation loc).step F d).replicas = d.replicas :=
    replicas_step F rfl d
  obtain ⟨l, hl, hagree⟩ := ha.location
  have hfind : ((Operation.registerLocation loc).step F d).locations.find r.location =
      if loc.locationId = r.location then some loc else some l := by
    rw [find_location_registered, hl]
    exact if_congr (and_iff_right hacc) rfl rfl
  constructor
  · intro h
    refine ⟨by rw [hcaches]; exact ha.cache, ?_, by rw [hreplicas]; exact ha.replica⟩
    rw [hfind]
    by_cases hid : loc.locationId = r.location
    · rw [if_pos hid]
      obtain ⟨hnode, hworker, hdomain⟩ := h hid.symm
      -- the incarnation has been compared with the location on file
      have howner := ((accepted_registerLocation.mp hacc).2.2.2.2.2 l (by rw [hid]; exact hl)).1
      exact ⟨loc, rfl, hnode, hworker, howner.symm.trans hagree.workerBoot, hdomain⟩
    · rw [if_neg hid]
      exact ⟨l, rfl, hagree⟩
  · intro h hid
    obtain ⟨l', hl', hagree'⟩ := h.location
    rw [hfind, if_pos hid.symm] at hl'
    cases hl'
    exact ⟨hagree'.node, hagree'.worker, hagree'.domain⟩

theorem agrees_registerReplica {replica : ReplicaDescriptor}
    (hacc : (Operation.registerReplica replica).Accepted F d) {r : DirectoryRecord}
    (ha : Agrees d r) :
    (r.replica = replica.replicaId → ReplicaAgrees replica r) ↔
      Agrees ((Operation.registerReplica replica).step F d) r := by
  have hcaches : ((Operation.registerReplica replica).step F d).caches = d.caches :=
    caches_step F rfl d
  have hlocations : ((Operation.registerReplica replica).step F d).locations = d.locations :=
    locations_step F rfl d
  obtain ⟨p, hp, hsame⟩ := ha.replica
  have hfind : ((Operation.registerReplica replica).step F d).replicas.find r.replica =
      if replica.replicaId = r.replica then some replica else some p := by
    rw [find_replica_registered, hp]
    exact if_congr (and_iff_right hacc) rfl rfl
  constructor
  · intro h
    refine ⟨by rw [hcaches]; exact ha.cache, by rw [hlocations]; exact ha.location, ?_⟩
    rw [hfind]
    by_cases hid : replica.replicaId = r.replica
    · rw [if_pos hid]
      exact ⟨replica, rfl, h hid.symm⟩
    · rw [if_neg hid]
      exact ⟨p, rfl, hsame⟩
  · intro h hid
    obtain ⟨p', hp', hsame'⟩ := h.replica
    rw [hfind, if_pos hid.symm] at hp'
    cases hp'
    exact hsame'

/-- A call that writes no record keeps all in agreement exactly when it keeps each. -/
theorem allAgree_iff {op : Operation} (hrecords : (op.step F d).records = d.records)
    {P : DirectoryRecord → Prop} (hd : AllAgree d)
    (h : ∀ r, Agrees d r → (P r ↔ Agrees (op.step F d) r)) :
    (∀ r ∈ d.records, r.current = true → P r) ↔ AllAgree (op.step F d) := by
  unfold AllAgree
  rw [hrecords]
  exact forall₂_congr fun r hr => forall_congr' fun hcur => h r (hd r hr hcur)

/-- **What an accepted snapshot installs agrees exactly when the snapshot does.** -/
theorem allAgree_install {s : Snapshot} (hs : s.Sound) :
    s.Agree ↔ AllAgree (d.install s) := by
  have hlocations (k : LocationId) : (d.install s).locations.find k =
      ((KeyedMap.ofList LocationDescriptor.locationId s.locations).find k).map recoverLocation :=
    KeyedMap.find_adjust_all _ recoverLocation (fun _ => rfl) k
  refine Iff.symm (List.forall_mem_map.trans (forall₂_congr fun r _ => forall_congr' fun _ => ?_))
  constructor
  · intro ha
    obtain ⟨c, hc⟩ := ha.cache
    obtain ⟨l, hl, hagree⟩ := ha.location
    obtain ⟨p, hp, hsame⟩ := ha.replica
    rw [hlocations] at hl
    obtain ⟨x, hx, rfl⟩ := Option.map_eq_some_iff.mp hl
    refine ⟨⟨c, (KeyedMap.find_ofList_eq_some hs.cacheIds).mp hc⟩, ⟨x, ?_⟩, ⟨p, ?_⟩⟩
    · obtain ⟨hmem, hid⟩ := (KeyedMap.find_ofList_eq_some hs.locationIds).mp hx
      exact ⟨hmem, hid, hagree.node, hagree.worker, hagree.workerBoot, hagree.domain⟩
    · obtain ⟨hmem, hid⟩ := (KeyedMap.find_ofList_eq_some hs.replicaIds).mp hp
      exact ⟨hmem, hid, hsame.location, hsame.cache, hsame.entry⟩
  · rintro ⟨⟨c, hc, hcid⟩, ⟨l, hl, hlid, hagree⟩, ⟨p, hp, hpid, hsame⟩⟩
    refine ⟨⟨c, ?_⟩, ⟨recoverLocation l, ?_, ?_⟩, ⟨p, ?_, ?_⟩⟩
    · exact (KeyedMap.find_ofList_eq_some hs.cacheIds).mpr ⟨hc, hcid⟩
    · rw [hlocations, Option.map_eq_some_iff]
      exact ⟨l, (KeyedMap.find_ofList_eq_some hs.locationIds).mpr ⟨hl, hlid⟩, rfl⟩
    · exact ⟨hagree.node, hagree.worker, hagree.workerBoot, hagree.domain⟩
    · exact (KeyedMap.find_ofList_eq_some hs.replicaIds).mpr ⟨hp, hpid⟩
    · exact ⟨hsame.location, hsame.cache, hsame.entry⟩

/-- **One call keeps every current record in agreement exactly when it keeps agreement.** -/
theorem keepsAgreement_iff (op : Operation) (d : Directory) (hd : AllAgree d) :
    op.KeepsAgreement F d ↔ AllAgree (op.step F d) := by
  cases op with
  | registerLocation loc =>
      have hrecords : ((Operation.registerLocation loc).step F d).records = d.records :=
        guarded_keeps (P := fun t : Directory => t.records = d.records) rfl fun _ => rfl
      exact accepted_iff (P := AllAgree) rfl (by simp) hd fun hacc =>
        allAgree_iff hrecords hd fun r ha => agrees_registerLocation hacc ha
  | registerReplica replica =>
      have hrecords : ((Operation.registerReplica replica).step F d).records = d.records :=
        guarded_keeps (P := fun t : Directory => t.records = d.records) rfl fun _ => rfl
      exact accepted_iff (P := AllAgree) rfl (by simp) hd fun hacc =>
        allAgree_iff hrecords hd fun r ha => agrees_registerReplica hacc ha
  | recoverFromBuffer buf =>
      refine recovery_iff (P := AllAgree) hd fun s hs => ?_
      exact allAgree_install (problem_eq_none.mp (acceptedSnapshot_eq_some.mp hs).2)
  | _ => exact iff_of_true trivial (allAgree_step F rfl hd)

end Exact

/-! ## 4. Runs -/

/-- The only snapshot a directory's own bytes hold. -/
theorem accepted_saved {d : Directory} {o : MapOrders} {s : Snapshot} (hfit : d.SizesFit)
    (h : acceptedSnapshot (d.saveToBuffer o).2 = some s) : s = d.snapshotOf o := by
  obtain ⟨hparse, hproblem⟩ := acceptedSnapshot_eq_some.mp h
  obtain ⟨hok, hno⟩ := parseSnapshot_saved (o := o) hfit
  by_cases hlimits : d.CountsFit ∧ d.StringsFit
  · rw [hok hlimits] at hparse
    cases hparse
    rfl
  · obtain ⟨f, hf⟩ := hno hlimits
    rw [hf] at hparse
    cases hparse

/-- The snapshot of a directory in agreement agrees. -/
theorem agree_snapshotOf {d : Directory} (o : MapOrders) (hd : AllAgree d) :
    (d.snapshotOf o).Agree := by
  intro r hr hcur
  obtain ⟨x, hx, rfl⟩ := List.mem_map.mp hr
  have ha := hd x hx hcur
  obtain ⟨c, hc⟩ := ha.cache
  obtain ⟨l, hl, hagree⟩ := ha.location
  obtain ⟨p, hp, hsame⟩ := ha.replica
  obtain ⟨hcmem, hcid⟩ := KeyedMap.find_eq_some.mp hc
  obtain ⟨hlmem, hlid⟩ := KeyedMap.find_eq_some.mp hl
  obtain ⟨hpmem, hpid⟩ := KeyedMap.find_eq_some.mp hp
  refine ⟨⟨c, (o.caches.perm _).mem_iff.mpr hcmem, hcid⟩,
    ⟨locationAsRead {} l, List.mem_map_of_mem ((o.locations.perm _).mem_iff.mpr hlmem), hlid, ?_⟩,
    ⟨p, (o.replicas.perm _).mem_iff.mpr hpmem, hpid, ?_⟩⟩
  · exact ⟨hagree.node, hagree.worker, hagree.workerBoot, hagree.domain⟩
  · exact ⟨hsame.location, hsame.cache, hsame.entry⟩

/-- **Every current record agrees with its descriptors in every state reached exactly along the
    runs whose calls all keep agreement**; and the recovery of its own snapshot, in whatever
    state it comes, is a call that does. -/
theorem agreement_iff (F : Type) [ScoreArith F] :
    (∀ ops : List Operation,
      Follows (Operation.step F) (Operation.KeepsAgreement F) {} ops ↔
        ∀ d, Reached F ops d → ∀ r ∈ d.records, r.current = true → Agrees d r) ∧
      ∀ (d : Directory) (o : MapOrders), d.SizesFit →
        (∀ r ∈ d.records, r.current = true → Agrees d r) → ∀ t : Directory,
          (Operation.recoverFromBuffer (d.saveToBuffer o).2).KeepsAgreement F t := by
  constructor
  · intro ops
    exact follows_iff_visited keepsAgreement_iff ops {} fun r hr => (List.not_mem_nil hr).elim
  · intro d o hfit hd t s hs
    rw [accepted_saved hfit hs]
    exact agree_snapshotOf o hd

/-- The copy is registered; its owner registers the location again in another domain, and the
    replica again for another entry. -/
def replacedRun : List Operation :=
  registeredOnce ++
    [.registerLocation { attachedLocation ⟨1⟩ ⟨1⟩ with domain := .cudaDevice },
      .registerReplica { attachedReplica ⟨1⟩ ⟨1⟩ ⟨1⟩ ⟨1⟩ with entry := ⟨2⟩ }]

def replacedState : Directory := after (Operation.step Float) {} replacedRun

/-- **The counterexample**: the record is current, and neither its location nor its replica agrees
    with it. -/
theorem descriptors_replaced :
    Reached Float replacedRun replacedState ∧
      replacedState.records.map (fun r => (r.current, r.location, r.domain, r.replica, r.entry)) =
        [(true, ⟨1⟩, .unknown, ⟨1⟩, ⟨1⟩)] ∧
      (replacedState.locations.find ⟨1⟩).map (·.domain) = some .cudaDevice ∧
      (replacedState.replicas.find ⟨1⟩).map (·.entry) = some ⟨2⟩ :=
  ⟨after_mem_visited _ _ _, by decide +kernel, by decide +kernel, by decide +kernel⟩

theorem agreement_afterRegistration :
    (Operation.recoverFromBuffer (afterRegistration.saveToBuffer .stored).2).KeepsAgreement Float
      ({} : Directory) := by
  have hres := restartable_afterRegistration
  have hempty : (after (Operation.step Float) {} oneCopy).records = [] := by decide +kernel
  have hagree : AllAgree afterRegistration := by
    unfold afterRegistration registeredOnce
    rw [after_append, after, after]
    refine allAgree_step Float rfl fun r hr => ?_
    rw [hempty] at hr
    cases hr
  exact (agreement_iff Float).2 afterRegistration .stored
    (sizesFit_of_limits hres.counts hres.strings) hagree {}

end CacheDirectory
