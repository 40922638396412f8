/-
  File:      CacheDirectory/Recovery/Validation.lean
  Subject:   RECOVERY IS ALL OR NOTHING, AND WHAT IT INSTALLS IS SOUND.

  * `parseSnapshot_inside` -- no read of the parser leaves the buffer, whatever the bytes;
  * `recoverFromBuffer_cases` -- a recovery fails and leaves the directory alone, or it installs
    a snapshot that passed every check;
  * `Snapshot.Sound`, `sound_of_problem` -- what the checks establish;
  * `currentGenerations_spec` -- the map that is rebuilt holds the greatest current generation
    of every state;
  * `recoverFromBuffer_allOrNothing` -- both halves together, for every buffer;
  * `reached_invariant` -- the rule for invariants over runs with recovery of any bytes.
-/
import CacheDirectory.Invariants.Effects
import Mathlib.Tactic.MkIffOfInductiveProp

namespace CacheDirectory

open Library

/-! ## 1. The parser -/

/-- Header, checksum and digest refuse the buffer, or the body decides. -/
theorem parseSnapshot_cases (buf : Bytes) :
    (∃ f, parseSnapshot buf = .error (.refused f)) ∨
      ∃ body, parseSnapshot buf = readBody.runAll (persistenceCorrupt "trailing garbage") body := by
  unfold parseSnapshot
  split
  · exact .inl ⟨_, rfl⟩
  · cases hr : readHeader.raw ⟨buf, 0⟩ with
    | error e =>
        cases e with
        | outside => exact absurd hr (readHeader.bounded.inside ⟨buf, 0⟩ (Nat.zero_le _))
        | refused f => exact .inl ⟨f, rfl⟩
    | ok x =>
        obtain ⟨⟨crc, sha1⟩, rd⟩ := x
        dsimp only
        split
        · exact .inl ⟨_, rfl⟩
        · split
          · exact .inl ⟨_, rfl⟩
          · exact .inr ⟨_, rfl⟩

theorem parseSnapshot_inside (buf : Bytes) : parseSnapshot buf ≠ .error .outside := by
  rcases parseSnapshot_cases buf with ⟨f, h⟩ | ⟨body, h⟩
  · rw [h]
    exact fun h => by cases h
  · rw [h]
    exact Parser.runAll_inside _ _ _

/-- **A recovery fails and changes nothing, or installs a snapshot that passed the checks.** -/
theorem recoverFromBuffer_cases (buf : Bytes) (d : Directory) :
    (∃ f, d.recoverFromBuffer buf = some (.error f, d)) ∨
      ∃ s ack, parseSnapshot buf = .ok s ∧ s.problem = none ∧
        d.recoverFromBuffer buf = some (.ok ack, d.install s) := by
  unfold Directory.recoverFromBuffer
  cases hp : parseSnapshot buf with
  | error e =>
      cases e with
      | outside => exact absurd hp (parseSnapshot_inside buf)
      | refused f => exact .inl ⟨f, rfl⟩
  | ok s =>
      simp only
      cases hs : s.problem with
      | some f => exact .inl ⟨f, rfl⟩
      | none => exact .inr ⟨s, _, rfl, hs, rfl⟩

/-! ## 2. The rebuilt generation map -/

/-- `cur` holds, for every state met among `seen`, the greatest generation of a current one. -/
structure Highest (cur : StateGenerations) (seen : List DirectoryRecord) : Prop where
  bound : ∀ x ∈ seen, x.current = true →
    ∃ it, cur.find x.stateId = some it ∧ x.stateGeneration.value ≤ it.2.value
  met : ∀ it ∈ cur.values, ∃ x ∈ seen,
    x.current = true ∧ x.stateId = it.1 ∧ x.stateGeneration = it.2

theorem highest_put {cur : StateGenerations} {seen : List DirectoryRecord} {x : DirectoryRecord}
    (h : Highest cur seen) (hx : x.current = true)
    (habove : ∀ it, cur.find x.stateId = some it → it.2.value < x.stateGeneration.value) :
    Highest (cur.put (x.stateId, x.stateGeneration)) (seen ++ [x]) where
  bound y hy hcur := by
    rw [KeyedMap.find_put]
    rcases List.mem_append.mp hy with hy | hy
    · obtain ⟨it, hit, hle⟩ := h.bound y hy hcur
      by_cases hs : x.stateId = y.stateId
      · rw [← hs] at hit
        exact ⟨_, if_pos hs, UInt64.le_of_lt (UInt64.lt_of_le_of_lt hle (habove it hit))⟩
      · exact ⟨it, by rw [if_neg hs, hit], hle⟩
    · rw [List.mem_singleton.mp hy]
      exact ⟨_, if_pos rfl, UInt64.le_refl _⟩
  met it hit := by
    rcases KeyedMap.mem_put.mp hit with rfl | ⟨hold, _⟩
    · exact ⟨x, List.mem_append_right _ List.mem_cons_self, hx, rfl, rfl⟩
    · obtain ⟨y, hy, hy'⟩ := h.met it hold
      exact ⟨y, List.mem_append_left _ hy, hy'⟩

/-- One turn of the loop. -/
theorem highest_raise {cur : StateGenerations} {seen : List DirectoryRecord}
    (h : Highest cur seen) (x : DirectoryRecord) :
    Highest (raiseGeneration cur x) (seen ++ [x]) := by
  -- the map stays: everything but `x` is met as before
  have hstay (hx : x.current = true → ∃ it, cur.find x.stateId = some it ∧
      x.stateGeneration.value ≤ it.2.value) : Highest cur (seen ++ [x]) := by
    refine ⟨fun y hy hcur => ?_, fun it hit => ?_⟩
    · rcases List.mem_append.mp hy with hy | hy
      · exact h.bound y hy hcur
      · rw [List.mem_singleton.mp hy] at hcur ⊢
        exact hx hcur
    · obtain ⟨y, hy, hy'⟩ := h.met it hit
      exact ⟨y, List.mem_append_left _ hy, hy'⟩
  unfold raiseGeneration
  by_cases hx : x.current = true
  · rw [if_pos hx]
    cases hf : cur.find x.stateId with
    | none => exact highest_put h hx fun it hit => by rw [hf] at hit; cases hit
    | some it =>
        simp only
        split
        · rename_i hlt
          exact highest_put h hx fun it' hit' => by
            rw [hf] at hit'
            cases hit'
            exact hlt
        · rename_i hlt
          exact hstay fun _ => ⟨it, hf, UInt64.not_lt.mp hlt⟩
  · rw [if_neg hx]
    exact hstay fun h => absurd h hx

theorem highest_foldl : ∀ (xs : List DirectoryRecord) (cur : StateGenerations)
    (seen : List DirectoryRecord), Highest cur seen →
    Highest (xs.foldl raiseGeneration cur) (seen ++ xs)
  | [], cur, seen, h => by simpa using h
  | x :: xs, cur, seen, h => by
      have := highest_foldl xs _ _ (highest_raise h x)
      simpa using this

theorem currentGenerations_spec (records : List DirectoryRecord) :
    Highest (currentGenerations records) records := by
  have h0 : Highest ∅ [] :=
    { bound := fun x hx => by cases hx
      met := fun it hit => by cases hit }
  exact highest_foldl records ∅ [] h0

/-- The loop reads the standing, the state and the generation of a record, nothing else. -/
theorem currentGenerations_map {f : DirectoryRecord → DirectoryRecord}
    (hf : ∀ r, (f r).current = r.current ∧ (f r).stateId = r.stateId ∧
      (f r).stateGeneration = r.stateGeneration) (records : List DirectoryRecord) :
    currentGenerations (records.map f) = currentGenerations records := by
  have hraise : (fun cur r => raiseGeneration cur (f r)) = raiseGeneration := by
    funext cur r
    obtain ⟨hc, hs, hg⟩ := hf r
    unfold raiseGeneration
    rw [hc, hs, hg]
  unfold currentGenerations
  rw [List.foldl_map, hraise]

/-- The map is the one the validation computed: recovery changes nothing the loop reads. -/
theorem currentGenerations_recovered (records : List DirectoryRecord) :
    currentGenerations (records.map recoverRecord) = currentGenerations records :=
  currentGenerations_map (f := recoverRecord) (fun _ => ⟨rfl, rfl, rfl⟩) records

/-! ## 3. What the checks establish -/

/-- No current record is below another current record of its state. -/
def NoRegression (records : List DirectoryRecord) : Prop :=
  ∀ r ∈ records, ∀ r' ∈ records, r.current = true → r'.current = true →
    r.stateId = r'.stateId → ¬ r.stateGeneration.value < r'.stateGeneration.value

instance (records : List DirectoryRecord) : Decidable (NoRegression records) :=
  inferInstanceAs (Decidable (∀ r ∈ records, ∀ r' ∈ records, _ → _ → _ → ¬ _))

/-- Where nothing regresses the map holds the generation of every current record. -/
theorem currentGenerations_find {records : List DirectoryRecord} (h : NoRegression records)
    {r : DirectoryRecord} (hr : r ∈ records) (hcur : r.current = true) :
    (currentGenerations records).find r.stateId = some (r.stateId, r.stateGeneration) := by
  obtain ⟨it, hit, hle⟩ := (currentGenerations_spec records).bound r hr hcur
  obtain ⟨hmem, hkey⟩ := KeyedMap.find_eq_some.mp hit
  obtain ⟨x, hx, hxc, hxs, hxg⟩ := (currentGenerations_spec records).met it hmem
  have hnot := h r hr x hx hcur hxc (by rw [hxs, hkey])
  rw [hxg] at hnot
  have heq : it.2 = r.stateGeneration :=
    StrongValue.ext (UInt64.le_antisymm (UInt64.not_lt.mp hnot) hle)
  rw [hit, ← hkey, ← heq]

theorem noRegression_iff {records : List DirectoryRecord} :
    NoRegression records ↔ ∀ r ∈ records, (r.current &&
      ((currentGenerations records).find r.stateId).any
        fun it => r.stateGeneration.value < it.2.value) = false := by
  constructor
  · intro h r hr
    by_cases hcur : r.current = true
    · rw [hcur, currentGenerations_find h hr hcur]
      simp
    · simp [hcur]
  · intro h r hr r' hr' hcur hcur' hs hlt
    obtain ⟨it, hit, hle⟩ := (currentGenerations_spec records).bound r' hr' hcur'
    have := h r hr
    rw [hcur, hs, hit] at this
    simp only [Option.any_some, Bool.true_and, decide_eq_false_iff_not] at this
    exact this (UInt64.lt_of_lt_of_le hlt hle)

structure Snapshot.Sound (s : Snapshot) : Prop where
  recordIds : (s.records.map (·.recordId)).Nodup
  cacheIds : (s.caches.map (·.cacheId)).Nodup
  locationIds : (s.locations.map (·.locationId)).Nodup
  replicaIds : (s.replicas.map (·.replicaId)).Nodup
  leaseIds : (s.leases.map (·.leaseId)).Nodup
  tombstoneIds : (s.tombstones.map (·.tombstoneId)).Nodup
  observationIds : (s.observations.map (·.observationId)).Nodup
  identities : ∀ r ∈ s.records, r.recordId.isNull = false ∧ r.stateId.isNull = false ∧
    r.cache.isNull = false ∧ r.replica.isNull = false ∧ r.location.isNull = false
  tombstones : ∀ t ∈ s.tombstones, t.tombstoneId.isNull = false ∧ IsDeclared t.target.kind
  leases : ∀ l ∈ s.leases, l.leaseId.isNull = false ∧ l.holder.isNull = false
  generations : NoRegression s.records

theorem dupCheck_eq_false {α κ : Type} [DecidableEq κ] {vec : List α} {what : String}
    {id : α → κ} : (dupCheck vec what id).1 = false ↔ (vec.map id).Nodup := by
  simp [dupCheck]

theorem isDeclared_tombstoneKind {k : TombstoneKind} :
    IsDeclared k ↔ ¬ (toByte k).toNat > 12 := by
  show (toByte k).toNat < 13 ↔ _
  omega

/-- **The checks pass exactly on sound snapshots.** -/
theorem problem_eq_none {s : Snapshot} : s.problem = none ↔ s.Sound := by
  unfold Snapshot.problem
  rw [firstFailure_eq_none]
  simp only [List.forall_mem_append, List.forall_mem_cons, List.forall_mem_flatMap,
    dupCheck_eq_false, List.any_eq_false, Bool.or_eq_true, not_or, Bool.not_eq_true,
    decide_eq_false_iff_not, List.not_mem_nil, false_implies, implies_true, and_true,
    ← noRegression_iff, ← isDeclared_tombstoneKind]
  constructor
  · rintro ⟨⟨⟨h1, h2, h3, h4, h5, h6, h7, h8⟩, h9⟩, h10, h11⟩
    exact ⟨h1, h2, h3, h4, h5, h6, h7,
      fun r hr => by simpa only [and_assoc] using h8 r hr, h9, h10, h11⟩
  · intro h
    obtain ⟨h1, h2, h3, h4, h5, h6, h7, h8, h9, h10, h11⟩ := h
    exact ⟨⟨⟨h1, h2, h3, h4, h5, h6, h7,
      fun r hr => by simpa only [and_assoc] using h8 r hr⟩, h9⟩, h10, h11⟩

/-! ## 4. What is installed -/

/-- The directory as recovery leaves it: nothing the next recovery would refuse. -/
@[mk_iff] structure Directory.Sound (d : Directory) : Prop where
  recordIds : (d.records.map (·.recordId)).Nodup
  cacheIds : (d.caches.values.map (·.cacheId)).Nodup
  locationIds : (d.locations.values.map (·.locationId)).Nodup
  replicaIds : (d.replicas.values.map (·.replicaId)).Nodup
  leaseIds : (d.leases.values.map (·.leaseId)).Nodup
  tombstoneIds : (d.tombstones.map (·.tombstoneId)).Nodup
  observationIds : (d.observations.map (·.observationId)).Nodup
  identities : ∀ r ∈ d.records, r.recordId.isNull = false ∧ r.stateId.isNull = false ∧
    r.cache.isNull = false ∧ r.replica.isNull = false ∧ r.location.isNull = false
  tombstones : ∀ t ∈ d.tombstones, t.tombstoneId.isNull = false ∧ IsDeclared t.target.kind
  leases : ∀ l ∈ d.leases.values, l.leaseId.isNull = false ∧ l.holder.isNull = false
  generations : NoRegression d.records

instance (d : Directory) : Decidable d.Sound := decidable_of_iff _ d.sound_iff.symm

theorem sound_install {s : Snapshot} (hs : s.Sound) (d : Directory) : (d.install s).Sound where
  recordIds := by
    show ((s.records.map recoverRecord).map (·.recordId)).Nodup
    rw [List.map_map]
    exact hs.recordIds
  cacheIds := (d.install s).caches.nodup
  locationIds := (d.install s).locations.nodup
  replicaIds := (d.install s).replicas.nodup
  leaseIds := (d.install s).leases.nodup
  tombstoneIds := hs.tombstoneIds
  observationIds := hs.observationIds
  identities := by
    intro r' hr'
    obtain ⟨r, hr, rfl⟩ := List.mem_map.mp hr'
    exact hs.identities r hr
  tombstones := hs.tombstones
  leases := by
    intro l' hl'
    have hmem : l' ∈ ((KeyedMap.ofList LeaseDescriptor.leaseId s.leases).adjust (fun _ => true)
        recoverLease fun _ => rfl).values := hl'
    obtain ⟨l, hl, rfl⟩ := KeyedMap.mem_adjust.mp hmem
    exact hs.leases l ((KeyedMap.values_ofList hs.leaseIds).mem_iff.mp hl)
  generations := by
    intro x hx y hy hcx hcy hxy
    obtain ⟨r, hr, rfl⟩ := List.mem_map.mp hx
    obtain ⟨r', hr', rfl⟩ := List.mem_map.mp hy
    exact hs.generations r hr r' hr' hcx hcy hxy

/-- **Recovery is all or nothing, on any bytes**: no read leaves the buffer, a failure leaves the
    directory as it was, and a success leaves a sound one. -/
theorem recoverFromBuffer_allOrNothing (buf : Bytes) (d : Directory) :
    parseSnapshot buf ≠ .error .outside ∧
      ((∃ f, d.recoverFromBuffer buf = some (.error f, d)) ∨
        ∃ ack d', d.recoverFromBuffer buf = some (.ok ack, d') ∧ d'.Sound) := by
  refine ⟨parseSnapshot_inside buf, ?_⟩
  rcases recoverFromBuffer_cases buf d with hfail | ⟨s, ack, _, hprob, hrec⟩
  · exact .inl hfail
  · exact .inr ⟨ack, d.install s, hrec, sound_install (problem_eq_none.mp hprob) d⟩

/-! ## 5. Recovery as a step -/

theorem step_of_recovered (F : Type) [ScoreArith F] {buf : Bytes} {d : Directory}
    {r : Result AckResult × Directory} (h : d.recoverFromBuffer buf = some r) :
    (Operation.recoverFromBuffer buf).step F d = r.2 := by
  simp only [Operation.step, Operation.run, h]
  rfl

/-- **A recovery step leaves the directory alone or installs a sound snapshot.** -/
theorem step_recoverFromBuffer (F : Type) [ScoreArith F] (buf : Bytes) (d : Directory) :
    (Operation.recoverFromBuffer buf).step F d = d ∨
      ∃ s, parseSnapshot buf = .ok s ∧ s.Sound ∧
        (Operation.recoverFromBuffer buf).step F d = d.install s := by
  rcases recoverFromBuffer_cases buf d with ⟨f, hrec⟩ | ⟨s, ack, hp, hprob, hrec⟩
  · exact .inl (step_of_recovered F hrec)
  · exact .inr ⟨s, hp, problem_eq_none.mp hprob, step_of_recovered F hrec⟩

/-- A recovery keeps what is kept when a sound snapshot is installed. -/
theorem recover_keeps (F : Type) [ScoreArith F] {P : Directory → Prop} {buf : Bytes}
    {d : Directory} (hd : P d)
    (hinst : ∀ s, parseSnapshot buf = .ok s → s.Sound → P (d.install s)) :
    P ((Operation.recoverFromBuffer buf).step F d) := by
  rcases step_recoverFromBuffer F buf d with hstep | ⟨s, hparse, hs, hstep⟩
  · rw [hstep]
    exact hd
  · rw [hstep]
    exact hinst s hparse hs

/-- **The rule for runs with recovery of any bytes.** -/
theorem reached_invariant {F : Type} [ScoreArith F] {Inv : Directory → Prop} (hstart : Inv {})
    (hkept : ∀ {d d' : Directory}, Inv d → RecordsKept d d' → Inv d')
    (hcommit : ∀ {d d' : Directory} {record r : DirectoryRecord}, Inv d →
      Committed d record r d' → Inv d')
    (hinst : ∀ {s : Snapshot}, s.Sound → ∀ d : Directory, Inv (d.install s))
    {ops : List Operation} {d : Directory} (hd : Reached F ops d) : Inv d := by
  refine visited_invariant (fun op d h => ?_) hstart ops d hd
  cases hop : op.isRecovery with
  | false => exact step_keeps F hkept hcommit op d hop h
  | true =>
      cases op with
      | recoverFromBuffer buf => exact recover_keeps F h fun s _ hs => hinst hs d
      | _ => cases hop

end CacheDirectory
