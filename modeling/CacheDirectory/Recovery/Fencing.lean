/-
  File:      CacheDirectory/Recovery/Fencing.lean
  Subject:   WHAT OF THE GENERATION FENCE A RESTART KEEPS.

  The map of current generations is not saved; recovery rebuilds it from the current records. A
  state whose records were all invalidated, buried or superseded away comes back without an
  entry, and only a STATE tombstone still stands against its old generations.

  * `currentGen_install` -- the rebuilt map against the saved one;
  * `reattach_keeps` -- sessions, caches, locations and replicas move no fence;
  * `attach_accepted`, `registration_admitted` -- in a recovered directory a copy can always be
    attached, and its registration is admitted where nothing fences it;
  * `fencing_survives_restart_iff` -- the old generations of a state stay refused exactly when
    the state kept a current record or a tombstone covers them.
-/
import CacheDirectory.Invariants.Generations
import CacheDirectory.Recovery.Fidelity

namespace CacheDirectory

open Library Directory

namespace Directory

/-- The state has a current record. -/
def HasCurrent (d : Directory) (s : StateId) : Prop :=
  ∃ r ∈ d.records, r.current = true ∧ r.stateId = s

/-- A STATE tombstone covers the generation. -/
def Buried (d : Directory) (s : StateId) (g : StateGeneration) : Prop :=
  ∃ t ∈ d.tombstones, t.target.kind = .state ∧ t.target.state = s ∧
    g.value ≤ t.target.generationFloor

/-- The map of current generations is kept for states that exist. -/
def KeysExist (d : Directory) : Prop := ∀ p ∈ d.currentStateGen.values, p.1.isNull = false

end Directory

/-! ## 1. States in the map -/

theorem keysExist_of_committed {d d' : Directory} {record r : DirectoryRecord} (h : d.KeysExist)
    (hc : Committed d record r d') : d'.KeysExist := by
  intro p hp
  rw [hc.generations] at hp
  rcases KeyedMap.mem_put.mp hp with rfl | ⟨hp, _⟩
  · exact hc.identities.1
  · exact h p hp

theorem keysExist_install {s : Snapshot} (hs : s.Sound) (d : Directory) :
    (d.install s).KeysExist := by
  intro p hp
  obtain ⟨x, hx, _, hstate, _⟩ :=
    (currentGenerations_spec (s.records.map recoverRecord)).met p hp
  obtain ⟨r, hr, rfl⟩ := List.mem_map.mp hx
  rw [← hstate]
  exact (hs.identities r hr).2.1

/-- **Every key of the map was once the state of a checked record.** -/
theorem keysExist_reached {F : Type} [ScoreArith F] {ops : List Operation} {d : Directory}
    (hd : Reached F ops d) : d.KeysExist := by
  refine reached_invariant (fun p hp => absurd hp List.not_mem_nil) (fun h hk p hp => ?_)
    keysExist_of_committed keysExist_install hd
  rw [hk.generations] at hp
  exact h p hp

theorem stateId_exists {F : Type} [ScoreArith F] {ops : List Operation} {d : Directory}
    (hd : Reached F ops d) {s : StateId} {cg : StateGeneration} (hcg : d.currentGen s = some cg) :
    s.isNull = false := by
  obtain ⟨p, hp, _⟩ := Option.map_eq_some_iff.mp hcg
  obtain ⟨hmem, hkey⟩ := KeyedMap.find_eq_some.mp hp
  rw [← hkey]
  exact keysExist_reached hd p hmem

/-! ## 2. The rebuilt map -/

section Rebuilt

variable {d t : Directory} {o : MapOrders} {s : StateId}

theorem currentStateGen_install :
    (t.install (d.snapshotOf o)).currentStateGen = currentGenerations d.records := by
  show currentGenerations ((d.records.map (recordAsRead {})).map recoverRecord) = _
  rw [currentGenerations_recovered]
  exact currentGenerations_map (f := recordAsRead {}) (fun _ => ⟨rfl, rfl, rfl⟩) d.records

/-- **A state keeps its generation across a restart when it has a current record**, -/
theorem currentGen_install (h : d.OneGeneration) (hcur : d.HasCurrent s) :
    (t.install (d.snapshotOf o)).currentGen s = d.currentGen s := by
  obtain ⟨r, hr, hc, rfl⟩ := hcur
  unfold currentGen
  rw [currentStateGen_install, currentGenerations_find (noRegression_of_oneGeneration h) hr hc]
  exact (h r hr hc).symm

/-- and loses it when it has none. -/
theorem currentGen_install_none (hcur : ¬ d.HasCurrent s) :
    (t.install (d.snapshotOf o)).currentGen s = none := by
  unfold currentGen
  rw [currentStateGen_install, Option.map_eq_none_iff, KeyedMap.find_eq_none]
  intro p hp hs
  obtain ⟨r, hr, hc, hstate, _⟩ := (currentGenerations_spec d.records).met p hp
  exact hcur ⟨r, hr, hc, hstate.trans hs⟩

end Rebuilt

/-! ## 3. Attaching again -/

/-- What a worker sends before it registers an entry. -/
def Operation.isReattachment : Operation → Bool
  | .registerWorkerSession _ => true
  | .registerCache _ => true
  | .registerLocation _ => true
  | .registerReplica _ => true
  | _ => false

/-- Records, tombstones and generations: everything a registration is fenced by. -/
structure SameFences (d d' : Directory) : Prop where
  records : d'.records = d.records
  tombstones : d'.tombstones = d.tombstones
  generations : d'.currentStateGen = d.currentStateGen

theorem SameFences.guarded {d : Directory} {ε α : Type} {checks : List (Bool × ε)}
    {act : α × Directory} (h : SameFences d act.2) :
    SameFences d (Library.guarded checks d act).2 :=
  guarded_keeps (P := SameFences d) ⟨rfl, rfl, rfl⟩ fun _ => h

theorem reattach_keeps (F : Type) [ScoreArith F] {op : Operation} (hop : op.isReattachment = true)
    (d : Directory) : SameFences d (op.step F d) := by
  cases op with
  | registerWorkerSession session => exact SameFences.guarded ⟨rfl, rfl, rfl⟩
  | registerCache cache => exact SameFences.guarded ⟨rfl, rfl, rfl⟩
  | registerLocation loc => exact SameFences.guarded ⟨rfl, rfl, rfl⟩
  | registerReplica replica => exact SameFences.guarded ⟨rfl, rfl, rfl⟩
  | _ => cases hop

/-- A run of re-attachments. -/
theorem reattached_keeps (F : Type) [ScoreArith F] : ∀ (ops : List Operation) (d : Directory),
    (∀ op ∈ ops, op.isReattachment = true) → SameFences d (after (Operation.step F) d ops)
  | [], _, _ => ⟨rfl, rfl, rfl⟩
  | op :: ops, d, h => by
      have h1 := reattach_keeps F (h op List.mem_cons_self) d
      have h2 := reattached_keeps F ops (op.step F d)
        fun op' hop' => h op' (List.mem_cons_of_mem _ hop')
      exact ⟨h2.records.trans h1.records, h2.tombstones.trans h1.tombstones,
        h2.generations.trans h1.generations⟩

/-! ## 4. A registration that nothing fences -/

section Attach

variable {F : Type} [ScoreArith F] {d : Directory} {c : CacheId} {l : LocationId} {p : ReplicaId}

/-- A guarded call whose checks all pass runs its action. -/
theorem step_guarded {α : Type} {checks : List (Bool × Failure)} {act : α × Directory}
    (h : firstFailure checks = none) :
    (Operation.report (guarded checks d act)).2 = act.2 := by
  rw [guarded_of_none h]
  rfl

theorem attach_session (h : d.workers.find ⟨1⟩ = none) :
    ∃ a, (Operation.registerWorkerSession attachedSession).step F d =
      { d with
        workers := d.workers.put { attachedSession with live := true }
        accounting := a } :=
  ⟨_, step_guarded (by simp [attachedSession, h])⟩

theorem attach_cache (hlive : d.workerLive ⟨1⟩ = true) (hc : c.isNull = false)
    (h : d.caches.find c = none) :
    ∃ a, (Operation.registerCache (attachedCache d.epoch c)).step F d =
      { d with
        caches := d.caches.put (attachedCache d.epoch c)
        accounting := a
        indexesDirty := true } :=
  ⟨_, step_guarded (by simp [attachedCache, h, hc, hlive])⟩

theorem attach_location (hlive : d.workerLive ⟨1⟩ = true) (hl : l.isNull = false)
    (h : d.locations.find l = none) :
    ∃ a, (Operation.registerLocation (attachedLocation d.epoch l)).step F d =
      { d with
        locations := d.locations.put (attachedLocation d.epoch l)
        accounting := a
        indexesDirty := true } :=
  ⟨_, step_guarded (by simp [attachedLocation, h, hl, hlive, ascii])⟩

theorem attach_replica (hlive : d.workerLive ⟨1⟩ = true) (hp : p.isNull = false)
    (h : d.replicas.find p = none) (hloc : d.locations.contains l = true) :
    ∃ a, (Operation.registerReplica (attachedReplica d.epoch c l p)).step F d =
      { d with
        replicas := d.replicas.put (attachedReplica d.epoch c l p)
        accounting := a
        indexesDirty := true } :=
  ⟨_, step_guarded (by simp [attachedReplica, h, hp, hlive, hloc])⟩

/-- Boot 1 is unknown and the three ids are not in use. -/
structure Unattached (d : Directory) (c : CacheId) (l : LocationId) (p : ReplicaId) : Prop where
  session : d.workers.find ⟨1⟩ = none
  cache : c.isNull = false ∧ d.caches.find c = none
  location : l.isNull = false ∧ d.locations.find l = none
  replica : p.isNull = false ∧ d.replicas.find p = none

theorem find_attachedSession (d : Directory) :
    ((d.workers.put { attachedSession with live := true }).find ⟨1⟩).any (·.live) = true := by
  rw [KeyedMap.find_put]
  rfl

/-- **Where boot and ids are unused all four calls are accepted.** -/
theorem attach_accepted (h : Unattached d c l p) :
    ∃ a, after (Operation.step F) d (attach d.epoch c l p) =
      { d with
        workers := d.workers.put { attachedSession with live := true }
        caches := d.caches.put (attachedCache d.epoch c)
        locations := d.locations.put (attachedLocation d.epoch l)
        replicas := d.replicas.put (attachedReplica d.epoch c l p)
        accounting := a
        indexesDirty := true } := by
  have hlive := find_attachedSession d
  have hloc : (d.locations.put (attachedLocation d.epoch l)).contains l = true :=
    congrArg Option.isSome (KeyedMap.find_put_self _ _)
  obtain ⟨a1, h1⟩ := attach_session (F := F) h.session
  obtain ⟨a2, h2⟩ := attach_cache (F := F) (d := { d with
    workers := d.workers.put { attachedSession with live := true }
    accounting := a1 }) hlive h.cache.1 h.cache.2
  obtain ⟨a3, h3⟩ := attach_location (F := F) (d := { d with
    workers := d.workers.put { attachedSession with live := true }
    caches := d.caches.put (attachedCache d.epoch c)
    accounting := a2
    indexesDirty := true }) hlive h.location.1 h.location.2
  obtain ⟨a4, h4⟩ := attach_replica (F := F) (c := c) (d := { d with
    workers := d.workers.put { attachedSession with live := true }
    caches := d.caches.put (attachedCache d.epoch c)
    locations := d.locations.put (attachedLocation d.epoch l)
    accounting := a3
    indexesDirty := true }) hlive h.replica.1 h.replica.2 hloc
  refine ⟨a4, ?_⟩
  unfold attach
  simp only [after, h1]
  rw [h2, h3, h4]

/-- **Where nothing fences it, the registration of an attached copy is admitted.** -/
theorem registration_admitted {s : StateId} {g : StateGeneration} (h : Unattached d c l p)
    (hs : s.isNull = false) (hgen : d.currentGen s = none) (hburied : ¬ d.Buried s g)
    (hcopy : ∀ r ∈ d.records, r.stateId = s →
      r.current = false ∧ r.lifecycle ≠ .superseded) :
    (after (Operation.step F) d (attach d.epoch c l p)).checkRegistration
      (attachedRecord d.epoch c l p {} s g) = none := by
  obtain ⟨a, hstate⟩ := attach_accepted (F := F) h
  rw [hstate]
  refine checkRegistration_eq_none.mpr ⟨?_, ?_, ?_, ?_⟩
  · have hlive := find_attachedSession d
    have hcache : (d.caches.put (attachedCache d.epoch c)).find c =
        some (attachedCache d.epoch c) := KeyedMap.find_put_self _ _
    have hloc : (d.locations.put (attachedLocation d.epoch l)).find l =
        some (attachedLocation d.epoch l) := KeyedMap.find_put_self _ _
    have hrep : (d.replicas.put (attachedReplica d.epoch c l p)).find p =
        some (attachedReplica d.epoch c l p) := KeyedMap.find_put_self _ _
    simp only [dependencyChecks, attachedRecord, workerLive, hlive, hcache, hloc, hrep]
    simp [attachedReplica, attachedLocation, hs, h.cache.1, h.location.1, h.replica.1]
  · refine coveredByTombstone_eq_false.mpr fun t ht => ?_
    rw [Bool.eq_false_iff]
    intro hcov
    exact hburied ⟨t, ht, covers_stateTarget.mp hcov⟩
  · show ((d.currentGen s).any fun cg => g.value < cg.value) = false
    rw [hgen]
    rfl
  · unfold duplicateCheck
    rw [Option.map_eq_none_iff, List.find?_eq_none]
    intro r hr hsame
    unfold sameCopy at hsame
    simp only [Bool.and_eq_true, Bool.or_eq_true, beq_iff_eq] at hsame
    obtain ⟨⟨⟨⟨⟨hstand, hstate⟩, _⟩, _⟩, _⟩, _⟩ := hsame
    obtain ⟨hcur, hlife⟩ := hcopy r hr hstate
    rcases hstand with hstand | hstand
    · rw [hcur] at hstand
      cases hstand
    · exact hlife hstand

end Attach

/-! ## 5. Unused ids -/

/-- Some word other than zero is not in a list that leaves room for one. -/
theorem exists_unused_word (ws : List UInt64) (h : ws.length ≤ 100000000) :
    ∃ w : UInt64, w ≠ 0 ∧ w ∉ ws := by
  by_contra hno
  push Not at hno
  -- one candidate more than there are words in the list
  have hword {n : Nat} (hn : n < ws.length + 1) : (UInt64.ofNat (n + 1)).toNat = n + 1 := by
    rw [UInt64.toNat_ofNat']
    exact Nat.mod_eq_of_lt (by omega)
  have hnodup : ((List.range (ws.length + 1)).map fun n => UInt64.ofNat (n + 1)).Nodup := by
    refine List.Nodup.map_on (fun a ha b hb hab => ?_) List.nodup_range
    have heq := congrArg UInt64.toNat hab
    rw [hword (List.mem_range.mp ha), hword (List.mem_range.mp hb)] at heq
    omega
  have hsub : ((List.range (ws.length + 1)).map fun n => UInt64.ofNat (n + 1)) ⊆ ws := by
    intro w hw
    obtain ⟨n, hn, rfl⟩ := List.mem_map.mp hw
    refine hno _ fun hzero => ?_
    have heq := congrArg UInt64.toNat hzero
    rw [hword (List.mem_range.mp hn)] at heq
    exact Nat.succ_ne_zero n heq
  have hlen := (List.subperm_of_subset hnodup hsub).length_le
  rw [List.length_map, List.length_range] at hlen
  omega

/-- A map within the limit has a key to spare. -/
theorem exists_unused_key {ν Tag : Type} {key : ν → StrongValue Tag} (m : KeyedMap key)
    (h : m.size ≤ 100000000) : ∃ k : StrongValue Tag, k.isNull = false ∧ m.find k = none := by
  obtain ⟨w, hw, hfresh⟩ := exists_unused_word (m.values.map fun v => (key v).value)
    (by rw [List.length_map]; exact h)
  refine ⟨⟨w⟩, by simpa using hw, KeyedMap.find_eq_none.mpr fun v hv hk => hfresh ?_⟩
  exact List.mem_map.mpr ⟨v, hv, by rw [hk]⟩

/-! ## 6. The fence across a restart -/

/-- Whatever copies are attached, no registration of the generation is accepted. -/
def Directory.StillFenced (F : Type) [ScoreArith F] (d : Directory) (s : StateId)
    (g : StateGeneration) : Prop :=
  ∀ ops : List Operation, (∀ op ∈ ops, op.isReattachment = true) →
    ∀ (record : DirectoryRecord) (clk : Nat → TimestampNs), record.stateId = s →
      record.stateGeneration = g →
      ∃ f, ((after (Operation.step F) d ops).registerEntry record clk).1 = .error f

theorem exists_error_iff {d : Directory} {record : DirectoryRecord} {clk : Nat → TimestampNs} :
    (∃ f, (d.registerEntry record clk).1 = .error f) ↔ d.checkRegistration record ≠ none := by
  cases hcheck : d.checkRegistration record with
  | some f => simp [registerEntry_rejected hcheck]
  | none => simp [registerEntry_admitted hcheck]

section Restart

variable {F : Type} [ScoreArith F] {d t : Directory} {o : MapOrders} {s : StateId}
  {g cg : StateGeneration}

/-- A generation below the map's, or under a tombstone, is refused whatever is attached. -/
theorem stillFenced_of_fence
    (h : (∃ cg, d.currentGen s = some cg ∧ g.value < cg.value) ∨ d.Buried s g) :
    d.StillFenced F s g := by
  intro ops hops record clk hs hg
  refine exists_error_iff.mpr fun hnone => ?_
  have hkeep := reattached_keeps F ops d hops
  obtain ⟨_, hfree, hgen, _⟩ := checkRegistration_eq_none.mp hnone
  rcases h with ⟨cg, hcg, hlt⟩ | ⟨t, ht, hcov⟩
  · unfold generationCheck currentGen at hgen
    rw [hkeep.generations, hs, hg] at hgen
    unfold currentGen at hcg
    rw [hcg, Option.any_some] at hgen
    exact of_decide_eq_false hgen hlt
  · have hcov' := coveredByTombstone_eq_false.mp hfree t (hkeep.tombstones ▸ ht)
    rw [covers_stateTarget.mpr (by rw [hs, hg]; exact hcov)] at hcov'
    cases hcov'

/-- A recovered record is superseded by nothing. -/
theorem lifecycle_restored (r : DirectoryRecord) :
    (restoredRecord r).lifecycle ≠ .superseded := by
  show (if r.integrity == .corrupt then LifecycleState.failed else .stale) ≠ .superseded
  split <;> decide

/-- **Without a current record and without a tombstone the generation is admitted again.** -/
theorem not_stillFenced (hres : d.Restartable) (hs : s.isNull = false)
    (hcur : ¬ d.HasCurrent s) (hburied : ¬ d.Buried s g) :
    ¬ (t.install (d.snapshotOf o)).StillFenced F s g := by
  intro hfenced
  have hcounts := countsFit_install (countsFit_snapshotOf hres.counts o) t
  obtain ⟨c, hc⟩ := exists_unused_key _ hcounts.caches
  obtain ⟨l, hl⟩ := exists_unused_key _ hcounts.locations
  obtain ⟨p, hp⟩ := exists_unused_key _ hcounts.replicas
  have hadmit := registration_admitted (F := F) (s := s) (g := g)
    ⟨KeyedMap.find_eq_none.mpr fun w hw => absurd hw List.not_mem_nil, hc, hl, hp⟩ hs
    (currentGen_install_none (t := t) (o := o) hcur) hburied fun r' hr' hstate => by
      obtain ⟨x, hx, rfl⟩ := List.mem_map.mp hr'
      obtain ⟨r, hr, rfl⟩ := List.mem_map.mp hx
      rw [recoverRecord_asRead]
      refine ⟨?_, lifecycle_restored r⟩
      rw [Bool.eq_false_iff]
      exact fun hrc => hcur ⟨r, hr, hrc, hstate⟩
  have hops : ∀ op ∈ attach (t.install (d.snapshotOf o)).epoch c l p,
      op.isReattachment = true := by
    unfold attach
    simp [Operation.isReattachment]
  exact exists_error_iff.mp (hfenced _ hops _ (fun _ => 1) rfl rfl) hadmit

end Restart

/-- **The generation fence across a restart.** Let `g` be below the current generation of `s`
    when the snapshot is taken. Behind the restart every registration of `s` at `g` is still
    refused, whatever is attached, exactly when `s` had a current record or a STATE tombstone
    covers `g`; and the map holds no lower generation of `s` than before exactly when `s` had a
    current record. -/
theorem fencing_survives_restart_iff (F : Type) [ScoreArith F] (ops : List Operation)
    (d t t' : Directory) (o : MapOrders) (ack : AckResult) (s : StateId)
    (g cg : StateGeneration) (hd : Reached F ops d) (hfit : d.SizesFit)
    (hrec : t.recoverFromBuffer (d.saveToBuffer o).2 = some (.ok ack, t'))
    (hcg : d.currentGen s = some cg) (hlt : g.value < cg.value) :
    (t'.StillFenced F s g ↔ d.HasCurrent s ∨ d.Buried s g) ∧
      ((∃ cg', t'.currentGen s = some cg' ∧ cg.value ≤ cg'.value) ↔ d.HasCurrent s) := by
  obtain ⟨hres, rfl⟩ := restartable_of_recovered hfit hrec
  have hgen := oneGeneration_reached hd
  constructor
  · constructor
    · intro hfenced
      by_contra hno
      rw [not_or] at hno
      exact not_stillFenced hres (stateId_exists hd hcg) hno.1 hno.2 hfenced
    · intro h
      rcases h with hcur | hburied
      · exact stillFenced_of_fence (.inl ⟨cg, (currentGen_install hgen hcur).trans hcg, hlt⟩)
      · exact stillFenced_of_fence (.inr hburied)
  · constructor
    · intro h
      obtain ⟨cg', hcg', _⟩ := h
      by_contra hcur
      rw [currentGen_install_none hcur] at hcg'
      cases hcg'
    · intro hcur
      exact ⟨cg, (currentGen_install hgen hcur).trans hcg, UInt64.le_refl _⟩

/-- Generation 5 of state 1 is registered and invalidated. -/
def invalidation : List Operation :=
  oneCopy ++
    [.registerEntry (copyRecord ⟨1⟩ ⟨5⟩) fun _ => 1,
      .invalidateState ⟨1⟩ ⟨5⟩ { epoch := ⟨1⟩, boot := ⟨1⟩ } [] fun _ => 2]

def copyInvalidated : Directory := after (Operation.step Float) {} invalidation

theorem restartable_copyInvalidated : copyInvalidated.Restartable := by decide +kernel

/-- **The counterexample**: generation 3 is refused as stale, and admitted after a restart. -/
theorem copyInvalidated_unfenced :
    OwnReached Float copyInvalidated ∧
      (copyInvalidated.registerEntry (copyRecord {} ⟨3⟩) fun _ => 3).1 =
        .error ⟨.staleGeneration, "state generation below current"⟩ ∧
      ∃ ack t', Directory.recoverFromBuffer (copyInvalidated.saveToBuffer .stored).2 {} =
          some (.ok ack, t') ∧
        ∃ r, ((after (Operation.step Float) t' (attach ⟨2⟩ ⟨1⟩ ⟨1⟩ ⟨1⟩)).registerEntry
          (attachedRecord ⟨2⟩ ⟨1⟩ ⟨1⟩ ⟨1⟩ {} ⟨1⟩ ⟨3⟩) fun _ => 3).1 = .ok r := by
  have hstale : copyInvalidated.checkRegistration (copyRecord {} ⟨3⟩) =
      some ⟨.staleGeneration, "state generation below current"⟩ := by decide +kernel
  have hadmit : (after (Operation.step Float)
      (Directory.install (copyInvalidated.snapshotOf .stored) {})
      (attach ⟨2⟩ ⟨1⟩ ⟨1⟩ ⟨1⟩)).checkRegistration
        (attachedRecord ⟨2⟩ ⟨1⟩ ⟨1⟩ ⟨1⟩ {} ⟨1⟩ ⟨3⟩) = none := by decide +kernel
  obtain ⟨ack, hrec⟩ := recover_saved (o := .stored) restartable_copyInvalidated {}
  refine ⟨ownReached_after invalidation {} (by decide) .start, ?_, ack, _, hrec, ?_⟩
  · rw [registerEntry_rejected hstale]
  · rw [registerEntry_admitted hadmit]
    exact ⟨_, rfl⟩

theorem fencing_survives_restart_copyInvalidated :
    ∃ ack t', Directory.recoverFromBuffer (copyInvalidated.saveToBuffer .stored).2 {} =
        some (.ok ack, t') ∧
      (t'.StillFenced Float ⟨1⟩ ⟨3⟩ ↔
        copyInvalidated.HasCurrent ⟨1⟩ ∨ copyInvalidated.Buried ⟨1⟩ ⟨3⟩) := by
  have hres := restartable_copyInvalidated
  obtain ⟨ack, hrec⟩ := recover_saved (o := .stored) hres {}
  exact ⟨ack, _, hrec, (fencing_survives_restart_iff Float invalidation copyInvalidated {} _ .stored
    ack ⟨1⟩ ⟨3⟩ ⟨5⟩ (after_mem_visited _ _ _) (sizesFit_of_limits hres.counts hres.strings) hrec
    (by decide +kernel) (by decide)).1⟩

end CacheDirectory
