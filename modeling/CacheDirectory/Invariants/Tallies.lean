/-
  File:      CacheDirectory/Invariants/Tallies.lean
  Subject:   WHAT THE COUNTERS OF CALLS COUNT.

  Beside the gauges and the outcomes of queries the accounting has a counter for each kind of call.
  A call ticks one of them at most, and only when it is accepted. Three of the counters are ticked
  by no call: no damage, no stale mutation and no duplicate is ever counted.

  * `Counter`, `ticked` -- the counters, and the one a call ticks;
  * `read_step` -- one call;
  * `counters_exact` -- along runs.
-/
import CacheDirectory.Invariants.Gauges

namespace CacheDirectory

open Library Directory

/-! ## 1. The counters -/

/-- The event counters that do not stand for the outcome of a query. -/
inductive Counter where
  | registrations
  | updates
  | invalidations
  | queries
  | workerRestarts
  | integrityFailures
  | staleMutationRejections
  | duplicateConflictRejections
deriving DecidableEq

def Counter.read : Counter → Accounting → Int
  | .registrations, a => a.registrations
  | .updates, a => a.updates
  | .invalidations, a => a.invalidations
  | .queries, a => a.queries
  | .workerRestarts, a => a.workerRestarts
  | .integrityFailures, a => a.integrityFailures
  | .staleMutationRejections, a => a.staleMutationRejections
  | .duplicateConflictRejections, a => a.duplicateConflictRejections

/-- The worker has a session under another boot on file. -/
def takesOver (d : Directory) (session : WorkerSession) : Bool :=
  d.workers.values.any fun w => w.worker == session.worker && w.boot != session.boot

/-- The counter the call ticks when it is accepted. -/
def Operation.ticked (op : Operation) (d : Directory) : Option Counter :=
  match op with
  | .registerWorkerSession session => if takesOver d session then some .workerRestarts else none
  | .registerCache _ => some .registrations
  | .registerLocation _ => some .registrations
  | .registerReplica _ => some .registrations
  | .registerEntry _ _ => some .registrations
  | .registerLease _ => some .registrations
  | .updateHealth _ _ _ _ => some .updates
  | .updateFreshness _ _ _ _ => some .updates
  | .updateReachability _ _ _ _ => some .updates
  | .updateIntegrity _ _ _ _ => some .updates
  | .updateLifecycle _ _ _ _ => some .updates
  | .updateCacheHealth _ _ _ _ => some .updates
  | .updateCacheCapacity _ _ _ _ => some .updates
  | .renewLease _ _ _ => some .updates
  | .expireLease _ _ _ => some .updates
  | .revokeLease _ _ _ => some .updates
  | .invalidateState _ _ _ _ _ => some .invalidations
  | .invalidateLocation _ _ _ _ => some .invalidations
  | .invalidateReplica _ _ _ _ => some .invalidations
  | .invalidateCache _ _ _ _ => some .invalidations
  | .invalidateWorkerBoot _ _ _ _ => some .invalidations
  | .query _ _ => some .queries
  | _ => none

/-- The call is accepted, and ticks the counter. -/
def Operation.ticks (F : Type) [ScoreArith F] (c : Counter) (op : Operation) (d : Directory) :
    Bool :=
  op.Accepted F d ∧ op.ticked d = some c

/-! ## 2. One call -/

/-- The counter `t` is up by one, and no other is moved. -/
def Moved (t : Option Counter) (a a' : Accounting) : Prop :=
  ∀ c : Counter, c.read a' = c.read a + (decide (t = some c)).toNat

namespace Moved

theorem none (a : Accounting) : Moved none a a := fun c => (Int.add_zero (c.read a)).symm

theorem registered (a : Accounting) : Moved (some .registrations) a (Directory.registered a) := by
  intro c
  cases c <;> simp [Counter.read, Directory.registered]

theorem updated (a : Accounting) : Moved (some .updates) a (Directory.updated a) := by
  intro c
  cases c <;> simp [Counter.read, Directory.updated]

theorem invalidated (a : Accounting) : Moved (some .invalidations) a (Directory.invalidated a) := by
  intro c
  cases c <;> simp [Counter.read, Directory.invalidated]

theorem restarted (b : Bool) (a : Accounting) :
    Moved (if b = true then some .workerRestarts else Option.none) a
      (if b = true then { a with workerRestarts := a.workerRestarts + 1 } else a) := by
  cases b with
  | false => exact none a
  | true =>
      intro c
      cases c <;> simp [Counter.read]

theorem buried (n : Int) (a : Accounting) : Moved Option.none a { a with tombstones := n } := by
  intro c
  cases c <;> exact (Int.add_zero _).symm

theorem queried {F : Type} [ScoreArith F] (d : Directory) (q : DirectoryQuery)
    (res : QueryResult F) :
    Moved (some .queries) d.accounting (d.accountQuery q res) := by
  intro c
  unfold accountQuery
  repeat' split
  all_goals cases c <;> simp [Counter.read]

/-- A recount carries the counters over. -/
theorem recounted {t : Option Counter} {a : Accounting} {d : Directory}
    (h : Moved t a d.accounting) : Moved t a d.recomputeAccounting.accounting := by
  intro c
  rw [← h c]
  cases c <;> rfl

end Moved

/-- What a call moves, with its outcome: nothing when it fails. -/
def MovedBy (t : Option Counter) (d : Directory) (x : Option Failure × Directory) : Prop :=
  Moved (if x.1 = none then t else none) d.accounting x.2.accounting

namespace MovedBy

variable {α : Type} {d d' : Directory} {t : Option Counter}

theorem done {a : α} (h : Moved t d.accounting d'.accounting) :
    MovedBy t d (Operation.report (.ok a, d')) := h

theorem failed {f : Failure} (h : d'.accounting = d.accounting) :
    MovedBy t d (Operation.report ((.error f : Result α), d')) := by
  show Moved none d.accounting d'.accounting
  rw [h]
  exact .none _

/-- A call that leaves the accounting alone. -/
theorem same {x : Option Failure × Directory} (h : x.2.accounting = d.accounting) :
    MovedBy none d x := by
  unfold MovedBy
  rw [ite_self, h]
  exact .none _

/-- A call that fails with nothing done, or is done. -/
theorem of_outcomes {x : Result α × Directory}
    (h : (∃ f, x = (.error f, d)) ∨
      ∃ a d', x = (.ok a, d') ∧ Moved t d.accounting d'.accounting) :
    MovedBy t d (Operation.report x) := by
  rcases h with ⟨f, rfl⟩ | ⟨a, d', rfl, h⟩
  · exact failed rfl
  · exact done h

theorem guarded {checks : List (Bool × Failure)} {act : α × Directory}
    (h : Moved t d.accounting act.2.accounting) :
    MovedBy t d (Operation.report (Library.guarded checks d act)) :=
  of_outcomes ((guarded_cases checks d act).imp_right fun ⟨_, hend⟩ => ⟨_, _, hend, h⟩)

theorem evidence {write : DirectoryRecord → DirectoryRecord} {id : DirectoryRecordId}
    {env : AuthorityEnvelope} {now : TimestampNs} :
    MovedBy (some .updates) d (Operation.report (updateEvidence write id env now d)) := by
  rcases @updateEvidence_cases id env now d write with
    ⟨f, hend, _⟩ | ⟨i, _, _, hend⟩ | ⟨i, r, _, _, _, hend⟩
  · rw [hend]
    exact failed rfl
  · rw [hend]
    exact failed rfl
  · rw [hend]
    exact done (.recounted (.updated _))

theorem cache {write : CacheDescriptor → CacheDescriptor}
    {hwrite : ∀ c, (write c).cacheId = c.cacheId} {id : CacheId} {env : AuthorityEnvelope} :
    MovedBy (some .updates) d (Operation.report (updateCache write hwrite id env d)) :=
  of_outcomes ((updateCache_cases hwrite).imp_right
    fun ⟨_, _, _, hend⟩ => ⟨_, _, hend, .recounted (.updated _)⟩)

end MovedBy

section Calls

variable {F : Type} [ScoreArith F]

theorem movedBy_run (op : Operation) (d : Directory) : MovedBy (op.ticked d) d (op.run F d) := by
  have hindexes : d.ensureIndexes.accounting = d.accounting := by
    unfold ensureIndexes
    split <;> rfl
  cases op with
  | registerWorkerSession session => exact .guarded (.restarted _ _)
  | onWorkerLoss boot reason =>
      show MovedBy none d (Operation.report (d.onWorkerLoss boot reason))
      unfold onWorkerLoss
      split
      · exact .done (.none _)
      · exact .done (.recounted (.none _))
  | registerCache cache => exact .guarded (.recounted (.registered _))
  | registerLocation loc => exact .guarded (.recounted (.registered _))
  | registerReplica replica => exact .guarded (.recounted (.registered _))
  | registerLease lease => exact .guarded (.recounted (.registered _))
  | registerEntry record clk =>
      show MovedBy _ d (Operation.report (d.registerEntry record clk))
      unfold registerEntry
      split
      · exact .failed rfl
      · exact .done (.recounted (.registered _))
  | updateHealth id h env now => exact .evidence
  | updateFreshness id f env now => exact .evidence
  | updateReachability id reach env now => exact .evidence
  | updateIntegrity id integ env now => exact .evidence
  | updateLifecycle id s env now =>
      refine .of_outcomes ((updateLifecycle_cases s).imp_right ?_)
      rintro ⟨i, r, _, _, _, hend⟩
      exact ⟨r, _, hend, .recounted (.updated _)⟩
  | updateCacheHealth id h reach env => exact .cache
  | updateCacheCapacity id capacity free env => exact .cache
  | renewLease id env now =>
      refine .of_outcomes ((renewLease_cases now).imp_right ?_)
      rintro ⟨l, _, _, hend⟩
      exact ⟨_, _, hend, .recounted (.updated _)⟩
  | expireLease id env reason =>
      refine .of_outcomes ((expireLease_cases reason).imp_right ?_)
      rintro ⟨l, _, _, hend⟩
      exact ⟨_, _, hend, .recounted (.updated _)⟩
  | revokeLease id env reason =>
      refine .of_outcomes ((revokeLease_cases reason).imp_right ?_)
      rintro ⟨l, _, hend⟩
      exact ⟨_, _, hend, .recounted (.updated _)⟩
  | invalidateState s g env reason clk => exact .guarded (.recounted (.invalidated _))
  | invalidateLocation loc env reason clk => exact .guarded (.recounted (.invalidated _))
  | invalidateReplica rep env reason clk => exact .guarded (.recounted (.invalidated _))
  | invalidateCache c env reason clk => exact .guarded (.recounted (.invalidated _))
  | invalidateWorkerBoot b env reason clk => exact .guarded (.recounted (.invalidated _))
  | tombstone t => exact .guarded (.recounted (.buried _ _))
  | query order q =>
      show Moved (some .queries) d.accounting (d.query (F := F) order q).2.accounting
      rw [accounting_query]
      exact .queried d q _
  | setRankingPolicy p => exact .same rfl
  | validateIndexes =>
      exact .same (guarded_keeps (P := fun e : Directory => e.accounting = d.accounting) hindexes
        fun _ => hindexes)
  | indexes => exact .same hindexes
  | nextObjectId => exact .same rfl
  | recoverFromBuffer buf =>
      have hrecount : Moved none d.accounting
          ((Operation.recoverFromBuffer buf).step F d).accounting :=
        recover_keeps F (P := fun e : Directory => Moved none d.accounting e.accounting) (.none _)
          fun s _ _ => .recounted (.none _)
      unfold MovedBy
      rw [show (Operation.recoverFromBuffer buf).ticked d = none from rfl, ite_self]
      exact hrecount

/-- **One call.** -/
theorem read_step (c : Counter) (op : Operation) (d : Directory) :
    c.read (op.step F d).accounting = c.read d.accounting + (op.ticks F c d).toNat := by
  refine (movedBy_run (F := F) op d c).trans (congrArg (fun b : Bool => _ + (b.toNat : Int)) ?_)
  unfold Operation.ticks Operation.Accepted
  by_cases haccepted : (op.run F d).1 = none
  · simp [haccepted]
  · simp [haccepted]

/-- No call ticks the last three. -/
theorem not_ticked {c : Counter} (hc : c ∈ [Counter.integrityFailures, .staleMutationRejections,
    .duplicateConflictRejections]) (op : Operation) (d : Directory) : op.ticks F c d = false := by
  have hother : op.ticked d ≠ some c := by
    intro h
    rw [List.mem_cons, List.mem_cons, List.mem_singleton] at hc
    rcases hc with rfl | rfl | rfl
    all_goals cases op <;> simp [Operation.ticked] at h
  unfold Operation.ticks
  exact decide_eq_false fun h => hother h.2

end Calls

/-! ## 3. Runs -/

/-- **The counters of calls are exact.** In the state behind any run, recoveries included, every
    counter is the number of accepted calls that tick it, and three of them are zero. -/
theorem counters_exact (F : Type) [ScoreArith F] (ops : List Operation) :
    (∀ c : Counter, c.read (after (Operation.step F) {} ops).accounting =
        tally (Operation.step F) (Operation.ticks F c) {} ops) ∧
      ∀ c ∈ [Counter.integrityFailures, .staleMutationRejections, .duplicateConflictRejections],
        c.read (after (Operation.step F) {} ops).accounting = 0 := by
  have hcounts (c : Counter) : c.read (after (Operation.step F) {} ops).accounting =
      tally (Operation.step F) (Operation.ticks F c) {} ops := by
    have hstart : c.read ({} : Directory).accounting = 0 := by cases c <;> rfl
    rw [counter_after (μ := fun d : Directory => c.read d.accounting) (read_step c) ops {}, hstart,
      Int.zero_add]
  refine ⟨hcounts, fun c hc => ?_⟩
  rw [hcounts, tally_never (not_ticked hc)]
  rfl

end CacheDirectory
