/-
  File:      CacheDirectory/Invariants/Gauges.lean
  Subject:   WHETHER THE ACCOUNTING COUNTS WHAT IS THERE.

  An operation that edits a container recounts all gauges at its end and carries the event
  counters over. An evidence update that fails late edits a record and does not recount; along
  runs without a failed evidence update no gauge is ever off.

  * `GaugesExact` -- every gauge is the count of what it names;
  * `EventsGrow` -- no event counter is smaller behind than before;
  * `Ticked`, `accounted_step` -- one call that is no query; it leaves the counters of queries;
  * `gauges_exact` -- along runs.
-/
import CacheDirectory.Invariants.Edits
import CacheDirectory.Invariants.Indexes
import Mathlib.Data.Finset.Card

namespace CacheDirectory

open Library Directory

/-! ## 1. Gauges and events -/

namespace Accounting

/-- The counters `recompute_accounting` counts. -/
def gauges (a : Accounting) : List Int :=
  [a.caches, a.currentRecords, a.historicalRecords, a.logicalStates, a.replicas, a.locations,
    a.cudaLocations, a.hostLocations, a.storageLocations, a.reachableRecords, a.staleRecords,
    a.degradedRecords, a.corruptRecords, a.activeLeases, a.expiredLeases, a.tombstones]

/-- The counters it carries over. -/
def events (a : Accounting) : List Int :=
  [a.registrations, a.updates, a.invalidations, a.queries, a.localHits, a.remoteHits, a.misses,
    a.staleOnlyOutcomes, a.unreachableOnlyOutcomes, a.integrityFailures,
    a.staleMutationRejections, a.duplicateConflictRejections, a.workerRestarts]

/-- One counter for each way a query can end. -/
def outcomes (a : Accounting) : List Int :=
  [a.localHits, a.remoteHits, a.misses, a.staleOnlyOutcomes, a.unreachableOnlyOutcomes,
    a.integrityFailures]

theorem fields_nonneg {a : Accounting} (hgauges : ∀ n ∈ a.gauges, 0 ≤ n)
    (hevents : ∀ n ∈ a.events, 0 ≤ n) : ∀ f ∈ a.fields, 0 ≤ f.2 := by
  simp only [gauges, events, List.forall_mem_cons] at hgauges hevents
  simp only [fields, List.forall_mem_cons, List.not_mem_nil, false_imp_iff, implies_true, and_true]
  omega

end Accounting

/-- Every gauge is the count of what it names. -/
structure GaugesExact (d : Directory) : Prop where
  caches : d.accounting.caches = d.caches.size
  locations : d.accounting.locations = d.locations.size
  cudaLocations : d.accounting.cudaLocations =
    d.locations.values.countP (·.domain = .cudaDevice)
  hostLocations : d.accounting.hostLocations =
    d.locations.values.countP fun l => l.domain = .hostMemory ∨ l.domain = .hostPinned
  storageLocations : d.accounting.storageLocations =
    d.locations.values.countP fun l => l.domain = .localFilesystem ∨
      l.domain = .localNvmeClass ∨ l.domain = .sharedFilesystemClass ∨
      l.domain = .objectStorageClass
  replicas : d.accounting.replicas = d.replicas.size
  currentRecords : d.accounting.currentRecords = d.records.countP (·.current = true)
  historicalRecords : d.accounting.historicalRecords = d.records.countP (·.current = false)
  logicalStates : d.accounting.logicalStates = (d.records.map (·.stateId)).toFinset.card
  reachableRecords : d.accounting.reachableRecords =
    d.records.countP fun r => r.reachability = .reachable ∨ r.reachability = .degraded
  staleRecords : d.accounting.staleRecords = d.records.countP (·.freshness = .stale)
  degradedRecords : d.accounting.degradedRecords = d.records.countP (·.health = .degraded)
  corruptRecords : d.accounting.corruptRecords = d.records.countP (·.integrity = .corrupt)
  activeLeases : d.accounting.activeLeases = d.leases.values.countP (·.state = .active)
  expiredLeases : d.accounting.expiredLeases = d.leases.values.countP (·.state = .expired)
  tombstones : d.accounting.tombstones = d.tombstones.length

/-- No event counter is smaller behind than before. -/
def EventsGrow (a a' : Accounting) : Prop := List.Forall₂ (· ≤ ·) a.events a'.events

/-- What a call that is no query makes of the event counters. -/
structure Ticked (a a' : Accounting) : Prop where
  grow : EventsGrow a a'
  queries : a'.queries = a.queries
  outcomes : a'.outcomes = a.outcomes

section Counting

variable {d d' : Directory} {a a' a'' : Accounting}

theorem natCast_countP_congr {α : Type} {p q : α → Bool} (h : ∀ x, p x = true ↔ q x = true)
    (l : List α) : (l.countP p : Int) = l.countP q :=
  congrArg Nat.cast (List.countP_congr fun x _ => h x)

/-- **A recount is exact.** -/
theorem gaugesExact_recomputed (d : Directory) : GaugesExact d.recomputeAccounting where
  caches := rfl
  locations := rfl
  cudaLocations := rfl
  hostLocations := natCast_countP_congr (fun l => by simp [isHostDomain]) _
  storageLocations := natCast_countP_congr (fun l => by simp [isStorageDomain, or_assoc]) _
  replicas := rfl
  currentRecords := natCast_countP_congr (fun r => by simp) _
  historicalRecords := natCast_countP_congr (fun r => by simp) _
  logicalStates := congrArg Nat.cast (List.card_toFinset _).symm
  reachableRecords := natCast_countP_congr (fun r => by simp) _
  staleRecords := rfl
  degradedRecords := rfl
  corruptRecords := rfl
  activeLeases := rfl
  expiredLeases := rfl
  tombstones := rfl

namespace GaugesExact

/-- Exact gauges are counts, so none is negative. -/
theorem nonneg (h : GaugesExact d) : ∀ n ∈ d.accounting.gauges, 0 ≤ n := by
  simp only [Accounting.gauges, List.forall_mem_cons, List.not_mem_nil, false_imp_iff,
    implies_true, and_true]
  cases h
  omega

/-- Every record is current or historical. -/
theorem allRecords (h : GaugesExact d) :
    d.accounting.currentRecords + d.accounting.historicalRecords = d.records.length := by
  have hlength := d.records.length_eq_countP_add_countP fun r => r.current
  have hcurrent := h.currentRecords
  have hhistorical := h.historicalRecords
  simp only [Bool.not_eq_true, Bool.decide_eq_true] at hlength hcurrent
  omega

/-- They stay exact when neither they nor what they count is touched. -/
theorem of_same (h : GaugesExact d) (hgauges : d'.accounting.gauges = d.accounting.gauges)
    (hrecords : d'.records = d.records) (hcaches : d'.caches = d.caches)
    (hlocations : d'.locations = d.locations) (hreplicas : d'.replicas = d.replicas)
    (hleases : d'.leases = d.leases) (htombstones : d'.tombstones = d.tombstones) :
    GaugesExact d' := by
  simp only [Accounting.gauges, List.cons.injEq, and_true] at hgauges
  obtain ⟨hg₁, hg₂, hg₃, hg₄, hg₅, hg₆, hg₇, hg₈, hg₉, hg₁₀, hg₁₁, hg₁₂, hg₁₃, hg₁₄, hg₁₅, hg₁₆⟩ :=
    hgauges
  cases h
  constructor
  all_goals simp only [*]

end GaugesExact

namespace EventsGrow

theorem refl (a : Accounting) : EventsGrow a a := forall₂_refl (fun _ => Int.le_refl _) _

theorem nonneg (h : EventsGrow a a') (ha : ∀ n ∈ a.events, 0 ≤ n) : ∀ n ∈ a'.events, 0 ≤ n := by
  intro n hn
  obtain ⟨m, hm, hle⟩ := exists_of_forall₂ h hn
  exact Int.le_trans (ha m hm) hle

theorem queried {F : Type} [ScoreArith F] (d : Directory) (q : DirectoryQuery)
    (res : QueryResult F) : EventsGrow d.accounting (d.accountQuery q res) := by
  unfold accountQuery
  repeat' split
  all_goals simp [EventsGrow, Accounting.events]

end EventsGrow

namespace Ticked

theorem refl (a : Accounting) : Ticked a a := ⟨.refl a, rfl, rfl⟩

theorem registered (a : Accounting) : Ticked a (Directory.registered a) :=
  ⟨by simp [EventsGrow, Accounting.events, Directory.registered], rfl, rfl⟩

theorem updated (a : Accounting) : Ticked a (Directory.updated a) :=
  ⟨by simp [EventsGrow, Accounting.events, Directory.updated], rfl, rfl⟩

theorem invalidated (a : Accounting) : Ticked a (Directory.invalidated a) :=
  ⟨by simp [EventsGrow, Accounting.events, Directory.invalidated], rfl, rfl⟩

/-- The counter of restarts moves when a session takes over from another boot. -/
theorem restarted (b : Bool) (a : Accounting) :
    Ticked a (if b = true then { a with workerRestarts := a.workerRestarts + 1 } else a) := by
  cases b with
  | false => exact refl a
  | true => exact ⟨by simp [EventsGrow, Accounting.events], rfl, rfl⟩

end Ticked

end Counting

/-! ## 2. Calls -/

/-- Exact gauges stay exact under the premise, and the event counters are ticked. -/
structure Accounted (p : Prop) (d d' : Directory) : Prop where
  gauges : p → GaugesExact d → GaugesExact d'
  events : Ticked d.accounting d'.accounting

namespace Accounted

variable {p : Prop} {d d' : Directory}

theorem refl (d : Directory) : Accounted p d d := ⟨fun _ => id, .refl _⟩

/-- An operation that recounts at its end. -/
theorem recounted {x : Directory} (h : Ticked d.accounting x.accounting) :
    Accounted p d x.recomputeAccounting :=
  ⟨fun _ _ => gaugesExact_recomputed x, ⟨h.grow, h.queries, h.outcomes⟩⟩

theorem guarded {ε α : Type} {checks : List (Bool × ε)} {act : α × Directory}
    (h : Accounted p d act.2) : Accounted p d (Library.guarded checks d act).2 :=
  guarded_keeps (P := Accounted p d) (refl d) fun _ => h

theorem ensureIndexes (d : Directory) : Accounted p d d.ensureIndexes := by
  unfold Directory.ensureIndexes
  split
  · exact refl d
  · exact ⟨fun _ h => h.of_same rfl rfl rfl rfl rfl rfl rfl, .refl _⟩

theorem leaseAt {id : LeaseId} {f : LeaseDescriptor → LeaseDescriptor}
    {hf : ∀ l, (f l).leaseId = l.leaseId} : Accounted p d (CacheDirectory.leaseAt d id f hf) :=
  recounted (.updated _)

theorem storeAt (i : Fin d.records.length) (r : DirectoryRecord) :
    Accounted p d (CacheDirectory.storeAt d i r) :=
  recounted (.updated _)

end Accounted

theorem gauges_restarted (b : Bool) (a : Accounting) :
    (if b = true then { a with workerRestarts := a.workerRestarts + 1 } else a).gauges =
      a.gauges := by
  cases b <;> rfl

/-- If the call reports the health, freshness, reachability or integrity of a record, it is
    accepted. -/
def Operation.ReportSucceeds (F : Type) [ScoreArith F] (op : Operation) (d : Directory) : Prop :=
  match op with
  | .updateHealth _ _ _ _ => op.Accepted F d
  | .updateFreshness _ _ _ _ => op.Accepted F d
  | .updateReachability _ _ _ _ => op.Accepted F d
  | .updateIntegrity _ _ _ _ => op.Accepted F d
  | _ => True

/-- The queries that are counted. -/
def Operation.isQuery : Operation → Bool
  | .query _ _ => true
  | _ => false

section Calls

variable {F : Type} [ScoreArith F] {d : Directory}

/-- An evidence update that succeeds ends in the recount. -/
theorem accounted_report {write : DirectoryRecord → DirectoryRecord} {id : DirectoryRecordId}
    {env : AuthorityEnvelope} {now : TimestampNs} :
    Accounted ((Operation.report (updateEvidence write id env now d)).1 = none) d
      (updateEvidence write id env now d).2 := by
  rcases @updateEvidence_cases id env now d write with
    ⟨f, hend, _⟩ | ⟨i, _, _, hend⟩ | ⟨i, r, _, _, _, hend⟩
  · rw [hend]
    exact .refl d
  · rw [hend]
    refine ⟨fun h => ?_, .refl _⟩
    cases h
  · rw [hend]
    exact .storeAt i r

/-- **One call that is no query** keeps the gauges exact if its report succeeds, and leaves the
    counters of queries in any case. -/
theorem accounted_step (F : Type) [ScoreArith F] {op : Operation} (hop : op.isQuery = false)
    (d : Directory) : Accounted (op.ReportSucceeds F d) d (op.step F d) := by
  cases op with
  | registerWorkerSession session =>
      refine .guarded ⟨fun _ h => h.of_same ?_ rfl rfl rfl rfl rfl rfl, ?_⟩
      · exact gauges_restarted _ _
      · exact .restarted _ _
  | onWorkerLoss boot reason =>
      show Accounted _ d (d.onWorkerLoss boot reason).2
      unfold onWorkerLoss
      split
      · exact .refl d
      · exact .recounted (.refl _)
  | registerCache cache => exact .guarded (.recounted (.registered _))
  | registerLocation loc => exact .guarded (.recounted (.registered _))
  | registerReplica replica => exact .guarded (.recounted (.registered _))
  | registerLease lease => exact .guarded (.recounted (.registered _))
  | registerEntry record clk =>
      show Accounted _ d (d.registerEntry record clk).2
      unfold registerEntry
      split
      · exact .refl d
      · exact .recounted (.registered _)
  | updateHealth id h env now => exact accounted_report
  | updateFreshness id f env now => exact accounted_report
  | updateReachability id reach env now => exact accounted_report
  | updateIntegrity id integ env now => exact accounted_report
  | updateLifecycle id s env now =>
      exact updateLifecycle_keeps (P := Accounted _ d) (.refl d) fun i _ => .storeAt i _
  | updateCacheHealth id h reach env =>
      exact updateCache_keeps (P := Accounted _ d) (.refl d) (.recounted (.updated _))
  | updateCacheCapacity id capacity free env =>
      exact updateCache_keeps (P := Accounted _ d) (.refl d) (.recounted (.updated _))
  | renewLease id env now => exact renewLease_keeps (P := Accounted _ d) (.refl d) .leaseAt
  | expireLease id env reason => exact expireLease_keeps (P := Accounted _ d) (.refl d) .leaseAt
  | revokeLease id env reason => exact revokeLease_keeps (P := Accounted _ d) (.refl d) .leaseAt
  | tombstone t => exact .guarded (.recounted ⟨.refl _, rfl, rfl⟩)
  | query order q => cases hop
  | setRankingPolicy p => exact ⟨fun _ h => h.of_same rfl rfl rfl rfl rfl rfl rfl, .refl _⟩
  | validateIndexes =>
      have h : Accounted True d d.ensureIndexes := .ensureIndexes d
      exact guarded_keeps (P := Accounted _ d) h fun _ => h
  | indexes => exact .ensureIndexes d
  | nextObjectId => exact ⟨fun _ h => h.of_same rfl rfl rfl rfl rfl rfl rfl, .refl _⟩
  | recoverFromBuffer buf =>
      exact recover_keeps F (P := Accounted _ d) (.refl d) fun _ _ _ => .recounted (.refl _)
  | invalidateState s g env reason clk => exact .guarded (.recounted (.invalidated _))
  | invalidateLocation loc env reason clk => exact .guarded (.recounted (.invalidated _))
  | invalidateReplica rep env reason clk => exact .guarded (.recounted (.invalidated _))
  | invalidateCache c env reason clk => exact .guarded (.recounted (.invalidated _))
  | invalidateWorkerBoot b env reason clk => exact .guarded (.recounted (.invalidated _))

/-- A query counts itself and touches nothing that is counted. -/
theorem gauges_query (order : Enumeration Nat) (q : DirectoryQuery) (h : GaugesExact d) :
    GaugesExact (d.query (F := F) order q).2 := by
  rw [query_state]
  exact h.of_same rfl rfl rfl rfl rfl rfl rfl

/-- The counters behind a query, read off its answer. -/
theorem accounting_query (order : Enumeration Nat) (q : DirectoryQuery) :
    (d.query (F := F) order q).2.accounting =
      d.accountQuery q (d.queryImpl (F := F) q (queryPositions order q d.ensureIndexes)) := by
  have hcounters (res : QueryResult F) :
      d.ensureIndexes.accountQuery q res = d.accountQuery q res := by
    unfold ensureIndexes
    split <;> rfl
  rw [← hcounters, ← queryImpl_ensureIndexes]
  rfl

theorem gauges_step {op : Operation} (hop : op.ReportSucceeds F d) (h : GaugesExact d) :
    GaugesExact (op.step F d) := by
  cases hquery : op.isQuery with
  | false => exact (accounted_step F hquery d).gauges hop h
  | true =>
      cases op with
      | query order q => exact gauges_query order q h
      | _ => cases hquery

/-- **No call makes an event counter smaller.** -/
theorem events_step (F : Type) [ScoreArith F] (op : Operation) (d : Directory) :
    EventsGrow d.accounting (op.step F d).accounting := by
  cases hquery : op.isQuery with
  | false => exact (accounted_step F hquery d).events.grow
  | true =>
      cases op with
      | query order q =>
          show EventsGrow d.accounting (d.query (F := F) order q).2.accounting
          rw [accounting_query]
          exact .queried d q _
      | _ => cases hquery

end Calls

/-! ## 3. Runs -/

/-- **Along a run in which no report of health, freshness, reachability or integrity fails**, every
    gauge is the count of what it names in every state reached, no counter is negative, and no
    call makes an event counter smaller. -/
theorem gauges_exact (F : Type) [ScoreArith F] (ops : List Operation)
    (hops : Follows (Operation.step F) (Operation.ReportSucceeds F) {} ops) :
    (∀ d, Reached F ops d → GaugesExact d ∧
      d.accounting.currentRecords + d.accounting.historicalRecords = d.records.length ∧
      ∀ f ∈ d.accounting.fields, 0 ≤ f.2) ∧
    ∀ pre op post, ops = pre ++ op :: post →
      EventsGrow (after (Operation.step F) {} pre).accounting
        (after (Operation.step F) {} (pre ++ [op])).accounting := by
  have hinv : ∀ d, Reached F ops d → GaugesExact d ∧ ∀ n ∈ d.accounting.events, 0 ≤ n := by
    refine visited_of_follows (fun op d h hop => ?_) ops _ ?_ hops
    · exact ⟨gauges_step hop h.1, (events_step F op d).nonneg h.2⟩
    · exact ⟨gaugesExact_recomputed {}, by decide⟩
  constructor
  · intro d hd
    obtain ⟨hexact, hevents⟩ := hinv d hd
    exact ⟨hexact, hexact.allRecords, Accounting.fields_nonneg hexact.nonneg hevents⟩
  · intro pre op post _
    rw [after_append]
    exact events_step F op _

/-- The owner reports its copy degraded, unreachable, and corrupt. -/
def reporting : List Operation :=
  registeredOnce ++ [healthUpdate .degraded,
    .updateReachability ⟨1⟩ .unreachable { epoch := ⟨1⟩, boot := ⟨1⟩ } 0,
    .updateIntegrity ⟨1⟩ .corrupt { epoch := ⟨1⟩, boot := ⟨1⟩ } 0]

theorem gauges_exact_reporting :
    (∀ d, Reached Float reporting d → GaugesExact d ∧
      d.accounting.currentRecords + d.accounting.historicalRecords = d.records.length ∧
      ∀ f ∈ d.accounting.fields, 0 ≤ f.2) ∧
    ∀ pre op post, reporting = pre ++ op :: post →
      EventsGrow (after (Operation.step Float) {} pre).accounting
        (after (Operation.step Float) {} (pre ++ [op])).accounting := by
  refine gauges_exact Float reporting ⟨trivial, trivial, trivial, trivial, trivial, ?_⟩
  refine ⟨?_, ?_, ?_, trivial⟩
  all_goals
    show Operation.Accepted _ _ _
    decide +kernel

end CacheDirectory
