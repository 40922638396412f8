/-
  File:      CacheDirectory/Invariants/Content.lean
  Subject:   WHAT THE CALLS OF A DIRECTORY READ.

  Beside what it stores a directory keeps its accounting and the cached indexes. `content` blanks
  both. `validate_indexes` reports on what is blanked; every other call is blind behind it: its
  outcome and the content it leaves are a function of the content it finds.

  * `blind_guarded` -- a call that checks everything before it writes;
  * `blind_step` -- every call but `validate_indexes`.
-/
import CacheDirectory.Library.Traces
import CacheDirectory.Invariants.Indexes

namespace CacheDirectory

open Library Directory

/-- What a directory stores. -/
def Directory.content (d : Directory) : Directory :=
  { d with accounting := {}, indexes := {}, indexesDirty := true }

/-- The failure of a call, when there is one. -/
def Operation.failure (F : Type) [ScoreArith F] (op : Operation) (d : Directory) : Option Failure :=
  (op.run F d).1

/-- Two outcomes with the same failure and the same content behind. -/
structure Alike (x y : Option Failure × Directory) : Prop where
  failure : x.1 = y.1
  content : x.2.content = y.2.content

/-- A call does to what is stored what it does to the directory. -/
abbrev GoesByContent {α : Type} (call : Directory → Result α × Directory) (d : Directory) : Prop :=
  Alike (Operation.report (call d.content)) (Operation.report (call d))

section Blind

variable {α : Type} {d : Directory}

theorem alike_guarded {checks : List (Bool × Failure)} {act act' : α × Directory}
    (h : act'.2.content = act.2.content) :
    Alike (Operation.report (guarded checks d.content act'))
      (Operation.report (guarded checks d act)) := by
  unfold guarded
  cases firstFailure checks with
  | some f => exact ⟨rfl, rfl⟩
  | none => exact ⟨rfl, h⟩

theorem alike_invalidateWith {env : AuthorityEnvelope} {affected : UInt32} {message : Bytes}
    {act act' : Directory → Directory}
    (h : (act' d.content).content = (act d).content) :
    Alike (Operation.report (d.content.invalidateWith env affected message act'))
      (Operation.report (d.invalidateWith env affected message act)) :=
  alike_guarded h

/-- The calls that look a record up. -/
theorem alike_recordCalls (id : DirectoryRecordId) (env : AuthorityEnvelope) (now : TimestampNs) :
    (∀ write, GoesByContent (updateEvidence write id env now) d) ∧
      ∀ s, GoesByContent (updateLifecycle id s env now) d := by
  have hfind : d.content.findRecordIndex id = d.findRecordIndex id := rfl
  unfold GoesByContent updateEvidence updateLifecycle
  rw [hfind]
  cases d.findRecordIndex id with
  | none => exact ⟨fun _ => ⟨rfl, rfl⟩, fun _ => ⟨rfl, rfl⟩⟩
  | some i =>
      have hauth : d.content.checkUpdateAuthority (d.content.records.get i) env =
          d.checkUpdateAuthority (d.records.get i) env := rfl
      have hget : d.content.records.get i = d.records.get i := rfl
      dsimp only
      rw [hauth, hget]
      cases d.checkUpdateAuthority (d.records.get i) env with
      | some f => exact ⟨fun _ => ⟨rfl, rfl⟩, fun _ => ⟨rfl, rfl⟩⟩
      | none =>
          refine ⟨fun write => ?_, fun s => ?_⟩
          · cases canLifecycle (d.records.get i).lifecycle
                (deriveLifecycle (write (d.records.get i))) with
            | false => exact ⟨rfl, rfl⟩
            | true => exact ⟨rfl, rfl⟩
          · cases canLifecycle (d.records.get i).lifecycle s with
            | false => exact ⟨rfl, rfl⟩
            | true => exact ⟨rfl, rfl⟩

theorem alike_updateCache {write : CacheDescriptor → CacheDescriptor}
    {hwrite : ∀ c, (write c).cacheId = c.cacheId} {id : CacheId} {env : AuthorityEnvelope} :
    GoesByContent (updateCache write hwrite id env) d := by
  have hfind : d.content.caches.find id = d.caches.find id := rfl
  unfold GoesByContent updateCache
  rw [hfind]
  cases d.caches.find id with
  | none => exact ⟨rfl, rfl⟩
  | some c => exact alike_guarded rfl

/-- The calls that look a lease up. -/
theorem alike_leaseCalls (id : LeaseId) (env : AuthorityEnvelope) :
    (∀ now, GoesByContent (renewLease id env now) d) ∧
      (∀ reason, GoesByContent (expireLease id env reason) d) ∧
      ∀ reason, GoesByContent (revokeLease id env reason) d := by
  have hfind : d.content.leases.find id = d.leases.find id := rfl
  unfold GoesByContent renewLease expireLease revokeLease
  rw [hfind]
  cases d.leases.find id with
  | none => exact ⟨fun _ => ⟨rfl, rfl⟩, fun _ => ⟨rfl, rfl⟩, fun _ => ⟨rfl, rfl⟩⟩
  | some l => exact ⟨fun _ => alike_guarded rfl, fun _ => alike_guarded rfl, fun _ => ⟨rfl, rfl⟩⟩

theorem alike_onWorkerLoss {boot : WorkerBootId} {reason : Bytes} :
    GoesByContent (onWorkerLoss boot reason) d := by
  have hlive : d.content.workerLive boot = d.workerLive boot := rfl
  unfold GoesByContent onWorkerLoss
  rw [hlive]
  cases d.workerLive boot with
  | false => exact ⟨rfl, rfl⟩
  | true => exact ⟨rfl, rfl⟩

theorem alike_registerEntry {record : DirectoryRecord} {clk : Nat → TimestampNs} :
    GoesByContent (registerEntry record clk) d := by
  have hcheck : d.content.checkRegistration record = d.checkRegistration record := rfl
  unfold GoesByContent registerEntry
  rw [hcheck]
  cases d.checkRegistration record with
  | some f => exact ⟨rfl, rfl⟩
  | none => exact ⟨rfl, rfl⟩

theorem alike_recover (F : Type) [ScoreArith F] {buf : Bytes} :
    Alike ((Operation.recoverFromBuffer buf).run F d.content)
      ((Operation.recoverFromBuffer buf).run F d) := by
  unfold Operation.run recoverFromBuffer
  dsimp only
  cases parseSnapshot buf with
  | error e =>
      cases e with
      | outside => exact ⟨rfl, rfl⟩
      | refused f => exact ⟨rfl, rfl⟩
  | ok s =>
      dsimp only
      cases s.problem with
      | some f => exact ⟨rfl, rfl⟩
      | none => exact ⟨rfl, rfl⟩

/-- What a query leaves of the content. -/
theorem content_query (F : Type) [ScoreArith F] (d : Directory) (order : Enumeration Nat)
    (q : DirectoryQuery) :
    (d.query (F := F) order q).2.content = d.content := by
  rw [query_state d order q]
  rfl

theorem content_ensureIndexes (d : Directory) : d.ensureIndexes.content = d.content := by
  unfold ensureIndexes
  cases d.indexesDirty with
  | false => rfl
  | true => rfl

end Blind

/-- **Every call but `validate_indexes`** goes by the content of the directory. -/
theorem blind_step (F : Type) [ScoreArith F] {op : Operation} (hop : op ≠ .validateIndexes) :
    Blind (Operation.step F) (Operation.failure F) Directory.content op := by
  have hop (d : Directory) : Alike (op.run F d.content) (op.run F d) := by
    cases op with
    | registerWorkerSession session => exact alike_guarded rfl
    | onWorkerLoss boot reason => exact alike_onWorkerLoss
    | registerCache cache => exact alike_guarded rfl
    | registerLocation loc => exact alike_guarded rfl
    | registerReplica replica => exact alike_guarded rfl
    | registerEntry record clk => exact alike_registerEntry
    | updateHealth id h env now => exact (alike_recordCalls id env now).1 _
    | updateFreshness id f env now => exact (alike_recordCalls id env now).1 _
    | updateReachability id reach env now => exact (alike_recordCalls id env now).1 _
    | updateIntegrity id integ env now => exact (alike_recordCalls id env now).1 _
    | updateLifecycle id s env now => exact (alike_recordCalls id env now).2 s
    | updateCacheHealth id h reach env => exact alike_updateCache
    | updateCacheCapacity id capacity free env => exact alike_updateCache
    | registerLease lease => exact alike_guarded rfl
    | renewLease id env now => exact (alike_leaseCalls id env).1 now
    | expireLease id env reason => exact (alike_leaseCalls id env).2.1 reason
    | revokeLease id env reason => exact (alike_leaseCalls id env).2.2 reason
    | invalidateState s g env reason clk => exact alike_invalidateWith rfl
    | invalidateLocation loc env reason clk => exact alike_invalidateWith rfl
    | invalidateReplica rep env reason clk => exact alike_invalidateWith rfl
    | invalidateCache c env reason clk => exact alike_invalidateWith rfl
    | invalidateWorkerBoot b env reason clk => exact alike_invalidateWith rfl
    | tombstone t => exact alike_guarded rfl
    | query order q =>
        exact ⟨rfl, (content_query F d.content order q).trans (content_query F d order q).symm⟩
    | setRankingPolicy p => exact ⟨rfl, rfl⟩
    | validateIndexes => exact absurd rfl hop
    | indexes =>
        exact ⟨rfl, (content_ensureIndexes _).trans (content_ensureIndexes d).symm⟩
    | nextObjectId => exact ⟨rfl, rfl⟩
    | recoverFromBuffer buf => exact alike_recover F
  exact blind_of_blanked (fun d => (hop d).content) fun d => (hop d).failure

end CacheDirectory
