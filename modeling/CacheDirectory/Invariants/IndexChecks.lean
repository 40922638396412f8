/-
  File:      CacheDirectory/Invariants/IndexChecks.lean
  Subject:   WHAT A PASSED INDEX VALIDATION SAYS ABOUT THE CACHED INDEX.

  The validation compares the sizes of the eighteen multimaps with those of a fresh index and asks
  for every record in `by_state` alone. A multimap as large as the fresh one agrees with it exactly
  when it holds every pair of the records, so the question asked of `by_state` is the one missing
  for the others.

  * `validateIndexes_ok_iff` -- the tests that are made;
  * `Covers.perm` -- size and cover are agreement, for one multimap;
  * `validation_sound_iff` -- a passed validation means agreement exactly when the other multimaps
    cover the records too, or the index was built by the call itself.
-/
import CacheDirectory.Invariants.IndexUpkeep

namespace CacheDirectory

open Library Directory

/-! ## 1. Multimaps -/

/-- The multimap holds every pair of the other one. -/
abbrev Covers {κ : Type} (cached fresh : Multimap κ) : Prop := ∀ p ∈ fresh, p ∈ cached

/-- **A multimap that covers one of its own size, without duplicates, holds the same pairs.** -/
theorem Covers.perm {κ : Type} {cached fresh : Multimap κ} (h : Covers cached fresh)
    (hnodup : (fresh.map Prod.snd).Nodup) (hsize : cached.length = fresh.length) :
    cached.Perm fresh := by
  have hsub : fresh.Subperm cached := List.subperm_of_subset hnodup.of_map h
  exact (hsub.perm_of_length_le (Nat.le_of_eq hsize)).symm

/-- Leaving out entries leaves out positions. -/
theorem snd_sublist_filterMap {α κ : Type} {f : α × Nat → Option (κ × Nat)}
    (hf : ∀ p e, f p = some e → e.2 = p.2) (pairs : List (α × Nat)) :
    ((pairs.filterMap f).map Prod.snd).Sublist (pairs.map Prod.snd) := by
  induction pairs with
  | nil => exact .slnil
  | cons p pairs ih =>
      rw [List.filterMap_cons]
      cases hp : f p with
      | none => exact ih.cons p.2
      | some e =>
          rw [List.map_cons, List.map_cons, hf p e hp]
          exact ih.cons_cons p.2

/-- Every position is filed once. -/
theorem nodup_indexBy {κ : Type} (key : DirectoryRecord → κ) (l : List DirectoryRecord) :
    ((indexBy key l).map Prod.snd).Nodup := by
  have hpositions : (indexBy key l).map Prod.snd = l.zipIdx.map Prod.snd := by
    unfold indexBy
    rw [List.map_map]
    rfl
  rw [hpositions, List.zipIdx_map_snd]
  exact List.nodup_range'

theorem nodup_byDigest (l : List DirectoryRecord) :
    ((buildIndexes l).byDigest.map Prod.snd).Nodup := by
  refine List.Nodup.sublist (snd_sublist_filterMap (fun p e he => ?_) l.zipIdx) ?_
  · obtain ⟨r, i⟩ := p
    dsimp only at he
    split at he
    · cases he
      rfl
    · cases he
  · rw [List.zipIdx_map_snd]
    exact List.nodup_range'

/-- A relation of multimaps, map by map. -/
structure Mapwise (R : {κ : Type} → Multimap κ → Multimap κ → Prop) (x y : DirectoryIndexes) :
    Prop where
  byState : R x.byState y.byState
  byStateGeneration : R x.byStateGeneration y.byStateGeneration
  byCache : R x.byCache y.byCache
  byEntry : R x.byEntry y.byEntry
  byReplica : R x.byReplica y.byReplica
  byLocation : R x.byLocation y.byLocation
  byNode : R x.byNode y.byNode
  byWorker : R x.byWorker y.byWorker
  byBoot : R x.byBoot y.byBoot
  byDevice : R x.byDevice y.byDevice
  byDomain : R x.byDomain y.byDomain
  byDigest : R x.byDigest y.byDigest
  byFreshness : R x.byFreshness y.byFreshness
  byHealth : R x.byHealth y.byHealth
  byIntegrity : R x.byIntegrity y.byIntegrity
  byReachability : R x.byReachability y.byReachability
  byLifecycle : R x.byLifecycle y.byLifecycle
  byCompatibility : R x.byCompatibility y.byCompatibility

namespace Mapwise

variable {R S : {κ : Type} → Multimap κ → Multimap κ → Prop} {x y : DirectoryIndexes}

theorem of_forall (h : ∀ {κ : Type} (m m' : Multimap κ), R m m') : Mapwise R x y := by
  constructor
  all_goals exact h _ _

theorem mp (h : Mapwise (fun m m' => R m m' → S m m') x y) (hr : Mapwise R x y) :
    Mapwise S x y where
  byState := h.byState hr.byState
  byStateGeneration := h.byStateGeneration hr.byStateGeneration
  byCache := h.byCache hr.byCache
  byEntry := h.byEntry hr.byEntry
  byReplica := h.byReplica hr.byReplica
  byLocation := h.byLocation hr.byLocation
  byNode := h.byNode hr.byNode
  byWorker := h.byWorker hr.byWorker
  byBoot := h.byBoot hr.byBoot
  byDevice := h.byDevice hr.byDevice
  byDomain := h.byDomain hr.byDomain
  byDigest := h.byDigest hr.byDigest
  byFreshness := h.byFreshness hr.byFreshness
  byHealth := h.byHealth hr.byHealth
  byIntegrity := h.byIntegrity hr.byIntegrity
  byReachability := h.byReachability hr.byReachability
  byLifecycle := h.byLifecycle hr.byLifecycle
  byCompatibility := h.byCompatibility hr.byCompatibility

theorem imp (hr : Mapwise R x y) (h : ∀ {κ : Type} (m m' : Multimap κ), R m m' → S m m') :
    Mapwise S x y :=
  mp (of_forall h) hr

end Mapwise

theorem nodup_buildIndexes (x : DirectoryIndexes) (l : List DirectoryRecord) :
    Mapwise (fun _ m => (m.map Prod.snd).Nodup) x (buildIndexes l) where
  byState := nodup_indexBy _ l
  byStateGeneration := nodup_indexBy _ l
  byCache := nodup_indexBy _ l
  byEntry := nodup_indexBy _ l
  byReplica := nodup_indexBy _ l
  byLocation := nodup_indexBy _ l
  byNode := nodup_indexBy _ l
  byWorker := nodup_indexBy _ l
  byBoot := nodup_indexBy _ l
  byDevice := nodup_indexBy _ l
  byDomain := nodup_indexBy (fun r => toByte r.domain) l
  byDigest := nodup_byDigest l
  byFreshness := nodup_indexBy (fun r => toByte r.freshness) l
  byHealth := nodup_indexBy (fun r => toByte r.health) l
  byIntegrity := nodup_indexBy (fun r => toByte r.integrity) l
  byReachability := nodup_indexBy (fun r => toByte r.reachability) l
  byLifecycle := nodup_indexBy (fun r => toByte r.lifecycle) l
  byCompatibility := nodup_indexBy _ l

/-! ## 2. Agreement -/

/-- The cached multimaps hold exactly the pairs of the fresh ones. -/
def SamePairs (x fresh : DirectoryIndexes) : Prop := Mapwise (fun m m' => m.Perm m') x fresh

/-- Every record passes, for every multimap, the test that the validation makes for `by_state`. -/
def CoversAll (x fresh : DirectoryIndexes) : Prop := Mapwise (fun m m' => Covers m m') x fresh

/-- The sizes agree, multimap by multimap. -/
def SizesAgree (x fresh : DirectoryIndexes) : Prop :=
  Mapwise (fun m m' => m.length = m'.length) x fresh

theorem SamePairs.coversAll {x fresh : DirectoryIndexes} (h : SamePairs x fresh) :
    CoversAll x fresh :=
  h.imp fun _ _ hperm _ hp => hperm.mem_iff.mpr hp

/-- **Sizes and cover are agreement.** -/
theorem CoversAll.samePairs {x : DirectoryIndexes} {l : List DirectoryRecord}
    (h : CoversAll x (buildIndexes l)) (hsize : SizesAgree x (buildIndexes l)) :
    SamePairs x (buildIndexes l) := by
  have hperm : Mapwise (fun m m' => Covers m m' → m.length = m'.length → m.Perm m') x
      (buildIndexes l) :=
    (nodup_buildIndexes x l).imp fun _ _ hnodup hcover hlen => Covers.perm hcover hnodup hlen
  exact (hperm.mp h).mp hsize

/-- The sizes as the validation compares them. -/
theorem sizesAgree_iff {x y : DirectoryIndexes} :
    SizesAgree x y ↔ indexSizes x = indexSizes y := by
  constructor
  · intro h
    unfold indexSizes
    rw [h.byState, h.byStateGeneration, h.byCache, h.byEntry, h.byReplica, h.byLocation, h.byNode,
      h.byWorker, h.byBoot, h.byDevice, h.byDomain, h.byDigest, h.byFreshness, h.byHealth,
      h.byIntegrity, h.byReachability, h.byLifecycle, h.byCompatibility]
  · intro h
    simp only [indexSizes, List.cons.injEq, Prod.mk.injEq, true_and] at h
    obtain ⟨h1, h2, h3, h4, h5, h6, h7, h8, h9, h10, h11, h12, h13, h14, h15, h16, h17, h18, _⟩ := h
    exact ⟨h1, h2, h3, h4, h5, h6, h7, h8, h9, h10, h11, h12, h13, h14, h15, h16, h17, h18⟩

/-! ## 3. The validation -/

/-- The tests of the validation on an index. -/
structure PassesTests (d : Directory) (x : DirectoryIndexes) : Prop where
  sizes : SizesAgree x (buildIndexes d.records)
  byState : Covers x.byState (buildIndexes d.records).byState
  counters : ∀ f ∈ d.accounting.fields, 0 ≤ f.2

theorem validate_eq_none {a : Accounting} : a.validate = none ↔ ∀ f ∈ a.fields, 0 ≤ f.2 := by
  unfold Accounting.validate
  rw [Option.map_eq_none_iff, List.find?_eq_none]
  simp only [List.mem_reverse, decide_eq_true_eq, Int.not_lt]

/-- The validation works on the index as it is once it has been built. -/
theorem validateIndexes_state (d : Directory) : d.validateIndexes.2 = d.ensureIndexes :=
  guarded_keeps (P := fun d' => d' = d.ensureIndexes) rfl fun _ => rfl

theorem zipWith_names_all : ∀ (xs ys : List (String × Nat)), xs.map Prod.fst = ys.map Prod.fst →
    ((∀ c ∈ xs.zipWith (fun (which, n) (_, m) => (n != m,
        (⟨.indexInconsistent, "index disagrees: " ++ which⟩ : Failure))) ys, c.1 = false) ↔ xs = ys)
  | [], [], _ => by simp
  | [], _ :: _, h => by cases h
  | _ :: _, [], h => by cases h
  | (a, n) :: xs, (b, m) :: ys, h => by
      simp only [List.map_cons, List.cons.injEq] at h
      obtain ⟨rfl, h⟩ := h
      rw [List.zipWith_cons_cons, List.forall_mem_cons, zipWith_names_all xs ys h]
      simp

/-- **The validation passes exactly when its tests hold of the index it works on.** -/
theorem validateIndexes_ok_iff (d : Directory) :
    (∃ ack, d.validateIndexes.1 = .ok ack) ↔ PassesTests d d.ensureIndexes.indexes := by
  have hrecords : d.ensureIndexes.records = d.records := by rw [ensureIndexes_eq]
  have hcounters : d.ensureIndexes.accounting = d.accounting := by rw [ensureIndexes_eq]
  have hnames (x y : DirectoryIndexes) :
      (indexSizes x).map Prod.fst = (indexSizes y).map Prod.fst := rfl
  have hby (missing : DirectoryRecord × Nat → Bool) (hmissing : ∀ p, missing p =
        !d.ensureIndexes.indexes.byState.contains (p.1.stateId, p.2)) :
      d.records.zipIdx.any missing = false ↔
        Covers d.ensureIndexes.indexes.byState (buildIndexes d.records).byState := by
    show _ ↔ ∀ p ∈ List.map _ d.records.zipIdx, _
    rw [List.forall_mem_map]
    simp [List.any_eq_false, hmissing]
  have hacc : d.accounting.validate.isSome = false ↔ ∀ f ∈ d.accounting.fields, 0 ≤ f.2 := by
    rw [← validate_eq_none, Option.isSome_eq_false_iff, Option.isNone_iff_eq_none]
  have hpass : (∃ ack, d.validateIndexes.1 = .ok ack) ↔ _ = none := Library.guarded_ok_iff
  rw [hpass, firstFailure_eq_none, List.forall_mem_append, hrecords, hcounters,
    zipWith_names_all _ _ (hnames _ _), ← sizesAgree_iff, List.forall_mem_cons,
    List.forall_mem_singleton, hby _ fun _ => rfl, hacc]
  exact ⟨fun h => ⟨h.1, h.2.1, h.2.2⟩, fun h => ⟨h.sizes, h.byState, h.counters⟩⟩

/-- The index of the records agrees with itself. -/
theorem samePairs_self (x : DirectoryIndexes) : SamePairs x x := by
  constructor
  all_goals exact .refl _

/-- **A passed validation means agreement exactly** when the index was dirty and built by the call
    itself, when the tests do not pass, or when every record passes the test of `by_state` in
    every other multimap too. -/
theorem validation_sound_iff (d : Directory) :
    ((∃ ack, d.validateIndexes.1 = .ok ack) →
        SamePairs d.validateIndexes.2.indexes (buildIndexes d.records)) ↔
      d.indexesDirty = true ∨ ¬ PassesTests d d.indexes ∨
        CoversAll d.indexes (buildIndexes d.records) := by
  rw [validateIndexes_ok_iff, validateIndexes_state]
  cases hdirty : d.indexesDirty with
  | true =>
      have hbuilt : d.ensureIndexes.indexes = buildIndexes d.records := by
        unfold Directory.ensureIndexes
        rw [if_neg (by simp [hdirty])]
      rw [hbuilt]
      exact iff_of_true (fun _ => samePairs_self _) (.inl rfl)
  | false =>
      have hsame : d.ensureIndexes.indexes = d.indexes := by
        unfold Directory.ensureIndexes
        rw [if_pos (by simp [hdirty])]
      rw [hsame]
      constructor
      · intro h
        by_cases hpass : PassesTests d d.indexes
        · exact .inr (.inr (h hpass).coversAll)
        · exact .inr (.inl hpass)
      · rintro (h | h | h) hpass
        · cases h
        · exact absurd hpass h
        · exact h.samePairs hpass.sizes

/-- **The counterexample**: the health of a buried copy was written behind the index, and the
    validation passes. -/
theorem spoiled_index_passes :
    Reached Float spoiling spoiled ∧ (∃ ack, spoiled.validateIndexes.1 = .ok ack) ∧
      ¬ SamePairs spoiled.validateIndexes.2.indexes (buildIndexes spoiled.records) := by
  refine ⟨after_mem_visited _ _ _, ⟨_, rfl⟩, fun h => ?_⟩
  have hhealth := h.byHealth
  revert hhealth
  decide +kernel

end CacheDirectory
