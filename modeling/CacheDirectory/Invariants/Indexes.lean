/-
  File:      CacheDirectory/Invariants/Indexes.lean
  Subject:   THE INDEXED QUERY IS THE SCAN.

  * `Directory.IndexFits` -- the invariant: the cached index is declared dirty, or its buckets by
    state are those of the records;
  * `indexFits_reached` -- it holds along every run, recovery of any bytes included; the one
    write that does not set the dirty flag (a late failure of an evidence update) leaves the
    states of all records alone;
  * `scanned_bucket`, `scanned_all` -- sorting a bucket brings its records back in scan order,
    whatever order the bucket was enumerated in;
  * `query_eq_scan` -- the two queries answer alike, and only the counters of queries move.
-/
import CacheDirectory.Invariants.Failures
import Mathlib.Data.List.Sort

namespace CacheDirectory

open Library Directory

/-! ## 1. The invariant -/

/-- The cached buckets by state are declared dirty, or those of the records. -/
def Directory.IndexFits (d : Directory) : Prop :=
  d.indexesDirty = true ∨ d.indexes.byState = indexBy (·.stateId) d.records

/-- A multimap depends on the keys of the records only. -/
theorem indexBy_congr {κ : Type} {key : DirectoryRecord → κ} {l l' : List DirectoryRecord}
    (h : l'.map key = l.map key) : indexBy key l' = indexBy key l := by
  have hzip (l : List DirectoryRecord) : indexBy key l = (l.map key).zipIdx := by
    unfold indexBy
    rw [List.zipIdx_map]
    rfl
  rw [hzip, hzip, h]

theorem indexFits_of_kept {d d' : Directory} (h : d.IndexFits) (hk : RecordsKept d d') :
    d'.IndexFits := by
  rcases hk.index with hdirty | ⟨hflag, hindex⟩ | hbuilt
  · exact .inl hdirty
  · unfold IndexFits
    rw [hflag, hindex, indexBy_congr (hk.map_eq fun _ _ hr => hr.stateId)]
    exact h
  · refine .inr ?_
    rw [hbuilt]
    rfl

/-- Registration and recovery set the dirty flag. -/
theorem indexFits_step (F : Type) [ScoreArith F] (op : Operation) (d : Directory)
    (hd : d.IndexFits) : (op.step F d).IndexFits := by
  cases hop : op.isRecovery with
  | false => exact step_keeps F indexFits_of_kept (fun _ hc => .inl hc.dirty) op d hop hd
  | true =>
      cases op with
      | recoverFromBuffer buf => exact recover_keeps F hd fun _ _ _ => .inl rfl
      | _ => cases hop

/-- **The invariant holds along every run.** -/
theorem indexFits_reached {F : Type} [ScoreArith F] {ops : List Operation} {d : Directory}
    (hd : Reached F ops d) : d.IndexFits :=
  visited_invariant (indexFits_step F) (.inl rfl) ops d hd

/-! ## 2. Positions -/

/-- What `query_impl` reads at the positions it is given. -/
def scanned (records : List DirectoryRecord) (idx : List Nat) : List DirectoryRecord :=
  (unique (idx.mergeSort (· ≤ ·))).filterMap fun i => records[i]?

/-- Positions in strict order repeat nothing. -/
theorem unique_of_pairwise : ∀ {is : List Nat}, is.Pairwise (· < ·) → unique is = is
  | [], _ => rfl
  | [_], _ => rfl
  | i :: j :: is, h => by
      have hij : i ≠ j := Nat.ne_of_lt (List.rel_of_pairwise_cons h List.mem_cons_self)
      rw [unique, if_neg hij, unique_of_pairwise h.of_cons]

/-- Sorting undoes any order the positions came in. -/
theorem unique_mergeSort {is js : List Nat} (hp : js.Perm is) (h : is.Pairwise (· < ·)) :
    unique (js.mergeSort (· ≤ ·)) = is := by
  have hsorted : (js.mergeSort (· ≤ ·)).Pairwise (· ≤ ·) := by
    have hs : (js.mergeSort (· ≤ ·)).Pairwise fun a b : Nat => decide (a ≤ b) = true := by
      refine List.pairwise_mergeSort (fun a b c hab hbc => ?_) (fun a b => ?_) js
      · simp only [decide_eq_true_eq] at hab hbc ⊢
        omega
      · simp only [Bool.or_eq_true, decide_eq_true_eq]
        omega
    simpa using hs
  have heq : js.mergeSort (· ≤ ·) = is :=
    ((List.mergeSort_perm js _).trans hp).eq_of_pairwise
      (fun a b _ _ hab hba => Nat.le_antisymm hab hba) hsorted (h.imp Nat.le_of_lt)
  rw [heq, unique_of_pairwise h]

/-- Reading entries back at their own positions. -/
theorem filterMap_positions {records : List DirectoryRecord}
    {entries : List (DirectoryRecord × Nat)} (h : ∀ e ∈ entries, e ∈ records.zipIdx) :
    (entries.map Prod.snd).filterMap (fun i => records[i]?) = entries.map Prod.fst := by
  induction entries with
  | nil => rfl
  | cons e es ih =>
      have hread : records[e.2]? = some e.1 := by
        have hmem := h e List.mem_cons_self
        rwa [List.mem_zipIdx_iff_getElem?] at hmem
      rw [List.map_cons, List.map_cons, List.filterMap_cons_some hread,
        ih fun e' he' => h e' (List.mem_cons_of_mem _ he')]

/-- The positions of the entries that pass a test are in strict order. -/
theorem pairwise_positions {records : List DirectoryRecord}
    (p : DirectoryRecord × Nat → Bool) :
    ((records.zipIdx.filter p).map Prod.snd).Pairwise (· < ·) := by
  have hsub : ((records.zipIdx.filter p).map Prod.snd).Sublist (records.zipIdx.map Prod.snd) :=
    List.filter_sublist.map _
  rw [List.zipIdx_map_snd] at hsub
  exact (List.pairwise_lt_range' ..).sublist hsub

/-- **The bucket of a state, in any order, reads back the records of the state in scan order.** -/
theorem scanned_bucket (order : Enumeration Nat) (s : StateId) (records : List DirectoryRecord) :
    scanned records
        (order.order (((indexBy (·.stateId) records).filter fun e => e.1 == s).map Prod.snd)) =
      records.filter fun r => r.stateId == s := by
  have hbucket : ((indexBy (·.stateId) records).filter fun e => e.1 == s).map Prod.snd =
      (records.zipIdx.filter fun e => e.1.stateId == s).map Prod.snd := by
    unfold indexBy
    rw [List.filter_map, List.map_map]
    rfl
  unfold scanned
  rw [hbucket, unique_mergeSort (order.perm _) (pairwise_positions _),
    filterMap_positions fun e he => (List.mem_filter.mp he).1]
  have hfst : (records.zipIdx.filter fun e => e.1.stateId == s).map Prod.fst =
      (records.zipIdx.map Prod.fst).filter fun r => r.stateId == s := by
    rw [List.filter_map]
    rfl
  rw [hfst, List.zipIdx_map_fst]

/-- All positions read back all records. -/
theorem scanned_all (records : List DirectoryRecord) :
    scanned records (List.range records.length) = records := by
  have hall : List.range records.length = (records.zipIdx.filter fun _ => true).map Prod.snd := by
    rw [List.filter_true, List.zipIdx_map_snd, List.range_eq_range']
  unfold scanned
  rw [hall, unique_mergeSort (.refl _) (pairwise_positions _),
    filterMap_positions fun e he => (List.mem_filter.mp he).1, List.filter_true,
    List.zipIdx_map_fst]

/-! ## 3. The query -/

section Query

variable {F : Type} [ScoreArith F]

/-- The answer depends on the positions through the records that are considered. -/
theorem queryImpl_congr (d : Directory) (q : DirectoryQuery) {idx idx' : List Nat}
    (h : (scanned d.records idx).filter (considered q) =
      (scanned d.records idx').filter (considered q)) :
    d.queryImpl (F := F) q idx = d.queryImpl q idx' := by
  unfold scanned at h
  unfold queryImpl
  simp only [h]

/-- A record that is considered is of the state an exact query asks for. -/
theorem stateId_of_considered {q : DirectoryQuery} {r : DirectoryRecord} (hq : q.exactState = true)
    (h : considered q r = true) : r.stateId = q.state := by
  unfold considered identifyMatches at h
  simp only [Bool.and_eq_true, Bool.not_eq_true', hq, Bool.true_and, bne_eq_false_iff_eq] at h
  exact h.1.1.1.1.1.1.1

/-- **The positions of the index and all positions give the same records to consider.** -/
theorem considered_positions (order : Enumeration Nat) (q : DirectoryQuery) {d : Directory}
    (h : d.indexes.byState = indexBy (·.stateId) d.records) :
    (scanned d.records (queryPositions order q d)).filter (considered q) =
      (scanned d.records (List.range d.records.length)).filter (considered q) := by
  unfold queryPositions
  cases hq : q.exactState with
  | false => rfl
  | true =>
      rw [if_pos rfl, h, scanned_bucket, scanned_all, List.filter_filter]
      refine List.filter_congr fun r _ => ?_
      by_cases hc : considered q r = true
      · rw [hc, stateId_of_considered hq hc, beq_self_eq_true, Bool.and_true]
      · rw [Bool.not_eq_true] at hc
        rw [hc, Bool.false_and]

/-- With the index ensured, the buckets are those of the records. -/
theorem byState_ensureIndexes {d : Directory} (h : d.IndexFits) :
    d.ensureIndexes.indexes.byState = indexBy (·.stateId) d.ensureIndexes.records := by
  unfold ensureIndexes
  cases hdirty : d.indexesDirty with
  | true => rfl
  | false =>
      rcases h with h | h
      · rw [hdirty] at h
        cases h
      · exact h

/-- The answer does not look at the cached index. -/
theorem queryImpl_ensureIndexes (d : Directory) (q : DirectoryQuery) (idx : List Nat) :
    d.ensureIndexes.queryImpl (F := F) q idx = d.queryImpl q idx := by
  unfold ensureIndexes
  split <;> rfl

theorem queryImpl_indexed {d : Directory} (h : d.IndexFits) (order : Enumeration Nat)
    (q : DirectoryQuery) :
    d.ensureIndexes.queryImpl (F := F) q (queryPositions order q d.ensureIndexes) =
      d.queryImpl q (List.range d.records.length) := by
  rw [queryImpl_congr _ _ (considered_positions order q (byState_ensureIndexes h)),
    queryImpl_ensureIndexes, records_ensureIndexes]

end Query

/-- The counters a query moves, taken from `a'`, over the rest of `a`. -/
def queryCountersOf (a' a : Accounting) : Accounting :=
  { a with
    queries := a'.queries
    localHits := a'.localHits
    remoteHits := a'.remoteHits
    misses := a'.misses
    staleOnlyOutcomes := a'.staleOnlyOutcomes
    unreachableOnlyOutcomes := a'.unreachableOnlyOutcomes }

theorem accountQuery_counters {F : Type} [ScoreArith F] (d : Directory) (q : DirectoryQuery)
    (res : QueryResult F) :
    d.accountQuery q res = queryCountersOf (d.accountQuery q res) d.accounting := by
  unfold accountQuery
  repeat' split
  all_goals rfl

/-- Ensuring the index changes the cached index only. -/
theorem ensureIndexes_eq (d : Directory) :
    d.ensureIndexes = { d with indexes := d.ensureIndexes.indexes, indexesDirty := false } := by
  cases hdirty : d.indexesDirty with
  | true =>
      unfold ensureIndexes
      rw [if_neg (by simp [hdirty])]
  | false =>
      have hsame : d.ensureIndexes = d := by
        unfold ensureIndexes
        rw [if_pos (by simp [hdirty])]
      rw [hsame, ← hdirty]

/-- What a query does to the directory. -/
theorem query_state {F : Type} [ScoreArith F] (d : Directory) (order : Enumeration Nat)
    (q : DirectoryQuery) :
    (d.query (F := F) order q).2 =
      { d with
        accounting := queryCountersOf (d.query (F := F) order q).2.accounting d.accounting
        indexes := (d.query (F := F) order q).2.indexes
        indexesDirty := false } := by
  generalize hx : (d.query (F := F) order q).2.accounting = x
  have hcounters : x = queryCountersOf x d.accounting := by
    have hsame : d.ensureIndexes.accounting = d.accounting := by rw [ensureIndexes_eq d]
    rw [← hx, ← hsame]
    exact accountQuery_counters d.ensureIndexes q _
  calc (d.query (F := F) order q).2
      = { d.ensureIndexes with accounting := x } := by
        rw [← hx]
        rfl
    _ = { d with
          accounting := x
          indexes := d.ensureIndexes.indexes
          indexesDirty := false } :=
        congrArg (fun e : Directory => { e with accounting := x }) (ensureIndexes_eq d)
    _ = _ := congrArg (fun a => { d with
          accounting := a
          indexes := d.ensureIndexes.indexes
          indexesDirty := false }) hcounters

/-- **The indexed query is the canonical scan**, in every state of every run, for every query,
    every order the buckets are enumerated in and every arithmetic of scores; and of the
    directory it changes the counters of queries and the cached index only. -/
theorem query_eq_scan (F : Type) [ScoreArith F] (ops : List Operation) (d : Directory)
    (order : Enumeration Nat) (q : DirectoryQuery) (hd : Reached F ops d) :
    (d.query (F := F) order q).1 = .ok (d.queryScan q) ∧
      (d.query (F := F) order q).2 =
        { d with
          accounting :=
            queryCountersOf (d.query (F := F) order q).2.accounting d.accounting
          indexes := (d.query (F := F) order q).2.indexes
          indexesDirty := false } := by
  have hindexed := queryImpl_indexed (F := F) (indexFits_reached hd) order q
  constructor
  · show Except.ok _ = _
    rw [hindexed]
    rfl
  · exact query_state d order q

theorem query_eq_scan_afterRegistration :
    (afterRegistration.query (F := Float) (.stored _) { exactState := true, state := ⟨1⟩ }).1 =
      .ok (afterRegistration.queryScan { exactState := true, state := ⟨1⟩ }) :=
  (query_eq_scan Float registeredOnce afterRegistration _ _ (after_mem_visited _ _ _)).1

end CacheDirectory
