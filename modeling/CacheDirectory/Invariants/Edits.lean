/-
  File:      CacheDirectory/Invariants/Edits.lean
  Subject:   WHAT ONE CALL MAKES OF ONE RECORD.

  `Kept` says what no call touches. This file says what a call does touch: the eight things that
  can happen to a record on file, each with the guard behind which it happens. The laws about
  evidence, lifecycles and availability are derived from it case by case.

  * `displaces` -- the records a registration takes the place of, by either loop;
  * `selects` -- the records an invalidation is granted to mark;
  * `Edited` -- a record before and after a call;
  * `edited_step` -- every call but a recovery edits the records on file and appends what a
    registration commits, and does nothing else to the vector.
-/
import CacheDirectory.Invariants.Authority

namespace CacheDirectory

open Library Directory

/-! ## 1. Registration -/

/-- The generation registered is above the current one of its state. -/
def outdates (d : Directory) (record : DirectoryRecord) : Bool :=
  (d.currentGen record.stateId).any fun cg => record.stateGeneration.value > cg.value

/-- One of the loops of `commit_record` supersedes the record on file. -/
def displaces (d : Directory) (record r : DirectoryRecord) : Bool :=
  r.current && r.stateId == record.stateId &&
    (outdates d record && r.stateGeneration.value < record.stateGeneration.value ||
      r.replica == record.replica && r.location == record.location &&
        r.recordId != d.effectiveId record &&
        (record.replicaGeneration.value > r.replicaGeneration.value ||
          record.locationGeneration.value > r.locationGeneration.value))

/-- **Both loops as one.** -/
theorem supersedeFor_stamped (d : Directory) (record : DirectoryRecord)
    (clk : Nat → TimestampNs) :
    supersedeFor d (d.stamped record clk) =
      d.records.map fun r => if displaces d record r then superseded r else r := by
  have houtdates : (d.currentGen (d.stamped record clk).stateId).any
      (fun cg => (d.stamped record clk).stateGeneration.value > cg.value) =
        outdates d record := rfl
  have hcopy (r : DirectoryRecord) : supersedeCopyOf (d.stamped record clk) (superseded r) =
      superseded r := if_neg (by simp [superseded])
  unfold supersedeFor
  rw [houtdates]
  cases hout : outdates d record with
  | false =>
      rw [if_neg Bool.false_ne_true]
      refine List.map_congr_left fun r _ => ?_
      unfold supersedeCopyOf displaces
      rw [hout]
      simp only [Bool.false_and, Bool.false_or, stamped, Bool.and_assoc]
  | true =>
      rw [if_pos rfl, List.map_map]
      refine List.map_congr_left fun r _ => ?_
      rw [Function.comp]
      by_cases holder : (r.stateId == record.stateId &&
          decide (r.stateGeneration.value < record.stateGeneration.value) && r.current) = true
      · have hold : supersedeOlderOf (d.stamped record clk) r = superseded r := if_pos holder
        rw [hold, hcopy, if_pos]
        unfold displaces
        rw [hout]
        simp only [Bool.and_eq_true] at holder
        simp [holder.1.1, holder.1.2, holder.2]
      · have hkeep : supersedeOlderOf (d.stamped record clk) r = r := if_neg holder
        rw [hkeep]
        unfold supersedeCopyOf displaces
        rw [hout]
        refine if_congr ?_ rfl rfl
        simp only [stamped]
        grind

/-- What a registration appends. -/
def Operation.appended (op : Operation) (d : Directory) : List DirectoryRecord :=
  match op with
  | .registerEntry record clk =>
      if (d.checkRegistration record).isNone then [d.stamped record clk] else []
  | _ => []

theorem appended_admitted {d : Directory} {record : DirectoryRecord} {clk : Nat → TimestampNs}
    (h : d.checkRegistration record = none) :
    (Operation.registerEntry record clk).appended d = [d.stamped record clk] :=
  if_pos (by rw [h]; rfl)

theorem appended_rejected {d : Directory} {record : DirectoryRecord} {clk : Nat → TimestampNs}
    {f : Failure} (h : d.checkRegistration record = some f) :
    (Operation.registerEntry record clk).appended d = [] :=
  if_neg (by rw [h]; exact Bool.false_ne_true)

/-- The first lifecycle of a record looks at integrity and reachability only. -/
theorem lifecycle_stamped (d : Directory) (record : DirectoryRecord) (clk : Nat → TimestampNs) :
    (d.stamped record clk).lifecycle =
      if record.integrity == .corrupt then .failed
      else if record.reachability == .unreachable then .unreachable else .available := rfl

/-! ## 2. One record -/

/-- The invalidation is granted and its loop tests the record for being current. -/
def Operation.selects (op : Operation) (d : Directory) (r : DirectoryRecord) : Bool :=
  match op with
  | .invalidateState s g env _ _ => env.epoch == d.epoch && d.selectState s g env r
  | .invalidateLocation loc env _ _ => env.epoch == d.epoch && r.location == loc
  | .invalidateReplica rep env _ _ => env.epoch == d.epoch && r.replica == rep
  | .invalidateCache c env _ _ => env.epoch == d.epoch && r.cache == c
  | .invalidateWorkerBoot b env _ _ => env.epoch == d.epoch && r.workerBoot == b
  | _ => false

/-- A derived lifecycle is refused for the record. -/
def Frozen (r : DirectoryRecord) : Prop :=
  r.lifecycle = .tombstoned ∨ r.lifecycle = .superseded

/-- **A record on file before and after a call.** -/
inductive Edited (d : Directory) : Operation → DirectoryRecord → DirectoryRecord → Prop where
  | untouched (op : Operation) (r : DirectoryRecord) : Edited d op r r
  | lost {b : WorkerBootId} {reason : Bytes} {r : DirectoryRecord}
      (live : d.workerLive b = true) (boot : r.workerBoot = b) :
      Edited d (.onWorkerLoss b reason) r (loseRecord r)
  | displaced {record r : DirectoryRecord} {clk : Nat → TimestampNs}
      (admitted : d.checkRegistration record = none) (hit : displaces d record r = true) :
      Edited d (.registerEntry record clk) r (superseded r)
  | late {op : Operation} {id : DirectoryRecordId} {env : AuthorityEnvelope}
      {write : DirectoryRecord → DirectoryRecord} {i : Fin d.records.length}
      (evidence : op.evidence = some (id, env, write)) (admitted : Admitted id env d i)
      (frozen : Frozen (d.records.get i)) : Edited d op (d.records.get i) (write (d.records.get i))
  | evidence {op : Operation} {id : DirectoryRecordId} {env : AuthorityEnvelope}
      {write : DirectoryRecord → DirectoryRecord} {i : Fin d.records.length} (now : TimestampNs)
      (evidence : op.evidence = some (id, env, write)) (admitted : Admitted id env d i)
      (free : ¬ Frozen (d.records.get i)) :
      Edited d op (d.records.get i)
        (restamped (deriveLifecycle (write (d.records.get i))) env now (write (d.records.get i)))
  | relabelled {id : DirectoryRecordId} {s : LifecycleState} {env : AuthorityEnvelope}
      {now : TimestampNs} {i : Fin d.records.length} (admitted : Admitted id env d i)
      (can : canLifecycle (d.records.get i).lifecycle s = true) :
      Edited d (.updateLifecycle id s env now) (d.records.get i)
        (restamped s env now (d.records.get i))
  | invalidated {op : Operation} {r : DirectoryRecord} (now : TimestampNs) (reach : Reachability)
      (hit : op.selects d r = true) (current : r.current = true)
      (reachability : reach = r.reachability ∨ reach = .unreachable) :
      Edited d op r
        { r with
          current := false
          lifecycle := .invalidated
          updatedNs := now
          reachability := reach }
  | buried {t : TombstoneRecord} {r : DirectoryRecord} (kind : t.target.kind = .state)
      (state : r.stateId = t.target.state)
      (floor : r.stateGeneration.value ≤ t.target.generationFloor) :
      Edited d (.tombstone t) r { r with lifecycle := .tombstoned, current := false }

namespace Edited

variable {d : Directory} {op : Operation} {r x : DirectoryRecord}

/-- A conditional edit is one when the edit is, behind its guard. -/
theorem ite {b : Bool} (h : b = true → Edited d op r x) :
    Edited d op r (if b = true then x else r) := by
  cases b with
  | true => exact h rfl
  | false => exact .untouched op r

end Edited

/-! ## 3. The vector -/

section Vector

variable {d : Directory}

/-- A call that leaves the vector alone. -/
theorem edited_of_same {d' : Directory} (op : Operation) (h : d'.records = d.records) :
    List.Forall₂ (Edited d op) d.records d'.records := by
  rw [h]
  exact forall₂_refl (Edited.untouched op) _

theorem edited_guarded {ε α : Type} {op : Operation} {checks : List (Bool × ε)}
    {act : α × Directory}
    (h : firstFailure checks = none → List.Forall₂ (Edited d op) d.records act.2.records) :
    List.Forall₂ (Edited d op) d.records (guarded checks d act).2.records :=
  guarded_keeps (P := fun d' : Directory => List.Forall₂ (Edited d op) d.records d'.records)
    (edited_of_same op rfl) h

theorem edited_updateEvidence {op : Operation} {id : DirectoryRecordId} {env : AuthorityEnvelope}
    {write : DirectoryRecord → DirectoryRecord} (now : TimestampNs)
    (hev : op.evidence = some (id, env, write)) :
    List.Forall₂ (Edited d op) d.records (updateEvidence write id env now d).2.records := by
  rcases @updateEvidence_cases id env now d write with
    ⟨f, h, _⟩ | ⟨i, hi, hcan, h⟩ | ⟨i, r, hi, rfl, hcan, h⟩
  · rw [h]
    exact edited_of_same op rfl
  · have hfrozen : Frozen (d.records.get i) := (canLifecycle_derived _ _).mp hcan
    rw [h]
    exact forall₂_set_self (Edited.untouched op) _ _ _ fun _ => .late hev hi hfrozen
  · have hfree : ¬ Frozen (d.records.get i) := by
      intro hfrozen
      have hno := (canLifecycle_derived _ (write (d.records.get i))).mpr hfrozen
      exact absurd (hno.symm.trans hcan) Bool.false_ne_true
    rw [h]
    exact forall₂_set_self (Edited.untouched op) _ _ _ fun _ => .evidence now hev hi hfree

theorem edited_updateLifecycle (id : DirectoryRecordId) (s : LifecycleState)
    (env : AuthorityEnvelope) (now : TimestampNs) :
    List.Forall₂ (Edited d (.updateLifecycle id s env now)) d.records
      (d.updateLifecycle id s env now).2.records := by
  rcases @updateLifecycle_cases id env now d s with ⟨f, h⟩ | ⟨i, r, hi, rfl, hcan, h⟩
  · rw [h]
    exact edited_of_same _ rfl
  · rw [h]
    exact forall₂_set_self (Edited.untouched _) _ _ _ fun _ => .relabelled hi hcan

theorem edited_onWorkerLoss (b : WorkerBootId) (reason : Bytes) :
    List.Forall₂ (Edited d (.onWorkerLoss b reason)) d.records
      (d.onWorkerLoss b reason).2.records := by
  unfold onWorkerLoss
  cases hlive : d.workerLive b with
  | false => exact edited_of_same _ rfl
  | true => exact forall₂_map_self (fun r => .ite fun hboot => .lost hlive (beq_iff_eq.mp hboot)) _

/-- An invalidation runs its loop behind the epoch check. -/
theorem edited_invalidateWith {op : Operation} {env : AuthorityEnvelope} {affected : UInt32}
    {message : Bytes} {act : Directory → Directory} {sel : DirectoryRecord → Bool}
    {also : DirectoryRecord → DirectoryRecord} {clk : Nat → TimestampNs}
    (hact : (act d).records = invalidateRecords sel also clk d.records)
    (hsel : ∀ r, op.selects d r = (env.epoch == d.epoch && sel r))
    (halso : ∀ r : DirectoryRecord, ∃ reach, (reach = r.reachability ∨ reach = .unreachable) ∧
      also r = { r with reachability := reach }) :
    List.Forall₂ (Edited d op) d.records
      (d.invalidateWith env affected message act).2.records := by
  refine edited_guarded fun hpass => ?_
  have hepoch : env.epoch = d.epoch := by
    rw [firstFailure_eq_none] at hpass
    simpa using hpass
  show List.Forall₂ (Edited d op) d.records (act d).records
  rw [hact]
  refine forall₂_mapIdx_self (fun i r => .ite fun hboth => ?_) _
  obtain ⟨hs, hcur⟩ := Bool.and_eq_true_iff.mp hboth
  have hhit : op.selects d r = true := by
    rw [hsel, hs, hepoch]
    simp
  obtain ⟨reach, hreach, heq⟩ := halso
    { r with current := false, lifecycle := .invalidated, updatedNs := clk i }
  rw [heq]
  exact .invalidated (clk i) reach hhit hcur hreach

theorem edited_tombstone (t : TombstoneRecord) :
    List.Forall₂ (Edited d (.tombstone t)) d.records (d.tombstone t).2.records := by
  refine edited_guarded fun _ => forall₂_map_self (fun r => .ite fun hhit => ?_) _
  obtain ⟨hkind, hfloor⟩ := Bool.and_eq_true_iff.mp hhit
  obtain ⟨hkind, hstate⟩ := Bool.and_eq_true_iff.mp hkind
  exact .buried (beq_iff_eq.mp hkind) (beq_iff_eq.mp hstate) (of_decide_eq_true hfloor)

theorem records_registerEntry (record : DirectoryRecord) (clk : Nat → TimestampNs)
    (h : d.checkRegistration record = none) :
    (d.registerEntry record clk).2.records =
      (d.records.map fun r => if displaces d record r then superseded r else r) ++
        [d.stamped record clk] := by
  rw [(committed_registerEntry clk h).records, supersedeFor_stamped]

end Vector

/-- A call that registers nothing edits the records on file. -/
theorem edited_of_addsNone (F : Type) [ScoreArith F] {op : Operation}
    (hop : op.addsRecords = false) (d : Directory) :
    List.Forall₂ (Edited d op) d.records (op.step F d).records := by
  have hid (r : DirectoryRecord) : ∃ reach, (reach = r.reachability ∨ reach = .unreachable) ∧
      id r = { r with reachability := reach } := ⟨r.reachability, .inl rfl, rfl⟩
  have hunreach (r : DirectoryRecord) :
      ∃ reach, (reach = r.reachability ∨ reach = .unreachable) ∧
        { r with reachability := .unreachable } = { r with reachability := reach } :=
    ⟨.unreachable, .inr rfl, rfl⟩
  cases op with
  | registerEntry record clk => cases hop
  | recoverFromBuffer buf => cases hop
  | registerWorkerSession session => exact edited_guarded fun _ => edited_of_same _ rfl
  | onWorkerLoss boot reason => exact edited_onWorkerLoss boot reason
  | registerCache cache => exact edited_guarded fun _ => edited_of_same _ rfl
  | registerLocation loc => exact edited_guarded fun _ => edited_of_same _ rfl
  | registerReplica replica => exact edited_guarded fun _ => edited_of_same _ rfl
  | updateHealth id h env now => exact edited_updateEvidence now rfl
  | updateFreshness id f env now => exact edited_updateEvidence now rfl
  | updateReachability id reach env now => exact edited_updateEvidence now rfl
  | updateIntegrity id integ env now => exact edited_updateEvidence now rfl
  | updateLifecycle id s env now => exact edited_updateLifecycle id s env now
  | updateCacheHealth id h reach env =>
      exact edited_of_same _ (updateCache_keeps (P := fun d' => d'.records = d.records) rfl rfl)
  | updateCacheCapacity id capacity free env =>
      exact edited_of_same _ (updateCache_keeps (P := fun d' => d'.records = d.records) rfl rfl)
  | registerLease lease => exact edited_guarded fun _ => edited_of_same _ rfl
  | renewLease id env now =>
      exact edited_of_same _ (renewLease_keeps (P := fun d' => d'.records = d.records) rfl rfl)
  | expireLease id env reason =>
      exact edited_of_same _ (expireLease_keeps (P := fun d' => d'.records = d.records) rfl rfl)
  | revokeLease id env reason =>
      exact edited_of_same _ (revokeLease_keeps (P := fun d' => d'.records = d.records) rfl rfl)
  | invalidateState s g env reason clk => exact edited_invalidateWith rfl (fun _ => rfl) hid
  | invalidateLocation loc env reason clk =>
      exact edited_invalidateWith rfl (fun _ => rfl) hunreach
  | invalidateReplica rep env reason clk => exact edited_invalidateWith rfl (fun _ => rfl) hid
  | invalidateCache c env reason clk => exact edited_invalidateWith rfl (fun _ => rfl) hid
  | invalidateWorkerBoot b env reason clk =>
      exact edited_invalidateWith rfl (fun _ => rfl) hunreach
  | tombstone t => exact edited_tombstone t
  | query order q => exact edited_of_same _ (records_ensureIndexes d)
  | setRankingPolicy p => exact edited_of_same _ rfl
  | validateIndexes =>
      exact edited_of_same _ (guarded_keeps (P := fun d' : Directory => d'.records = d.records)
        (records_ensureIndexes d) fun _ => records_ensureIndexes d)
  | indexes => exact edited_of_same _ (records_ensureIndexes d)
  | nextObjectId => exact edited_of_same _ rfl

/-- **Every call but a recovery** edits the records on file one by one, and appends what it
    commits. -/
theorem edited_step (F : Type) [ScoreArith F] {op : Operation} (hop : op.isRecovery = false)
    (d : Directory) :
    ∃ l, List.Forall₂ (Edited d op) d.records l ∧ (op.step F d).records = l ++ op.appended d := by
  cases hadd : op.addsRecords with
  | false =>
      refine ⟨_, edited_of_addsNone F hadd d, ?_⟩
      cases op with
      | registerEntry record clk => cases hadd
      | _ => exact (List.append_nil _).symm
  | true =>
      cases op with
      | recoverFromBuffer buf => cases hop
      | registerEntry record clk =>
          show ∃ l, _ ∧ (d.registerEntry record clk).2.records = _
          cases hcheck : d.checkRegistration record with
          | some f =>
              refine ⟨d.records, edited_of_same _ rfl, ?_⟩
              rw [registerEntry_rejected hcheck, appended_rejected hcheck, List.append_nil]
          | none =>
              refine ⟨_, forall₂_map_self (fun r => .ite fun hhit => .displaced hcheck hhit) _, ?_⟩
              rw [records_registerEntry record clk hcheck, appended_admitted hcheck]
      | _ => cases hadd

/-- The record at a position, before and after. -/
theorem edited_at (F : Type) [ScoreArith F] {op : Operation} (hop : op.isRecovery = false)
    {d : Directory} {i : Nat} {r r' : DirectoryRecord} (h : d.records[i]? = some r)
    (h' : (op.step F d).records[i]? = some r') : Edited d op r r' := by
  obtain ⟨l, hl, hrecords⟩ := edited_step F hop d
  obtain ⟨x, hx, hedited⟩ := exists_getElem?_of_forall₂ hl (op.appended d) h
  rw [hrecords, hx] at h'
  cases h'
  exact hedited

/-- **The rule for what holds of every record**: it survives each edit, and what is appended
    comes with it. -/
theorem forall_records_step (F : Type) [ScoreArith F] {P : DirectoryRecord → Prop}
    {op : Operation} (hop : op.isRecovery = false) {d : Directory}
    (hedit : ∀ r ∈ d.records, ∀ r', Edited d op r r' → P r') (happ : ∀ r ∈ op.appended d, P r) :
    ∀ r ∈ (op.step F d).records, P r := by
  obtain ⟨l, hl, hrecords⟩ := edited_step F hop d
  intro r hr
  rw [hrecords] at hr
  rcases List.mem_append.mp hr with hold | hnew
  · obtain ⟨a, ha, hedited⟩ := exists_of_forall₂ hl hold
    exact hedit a ha r hedited
  · exact happ r hnew

/-- **The rule for one registration**: what holds of the records, and of each when superseded,
    holds behind it exactly when it holds of the record, if that is admitted. -/
theorem registration_iff (F : Type) [ScoreArith F] {P : DirectoryRecord → Prop} {d : Directory}
    {record : DirectoryRecord} {clk : Nat → TimestampNs} (hold : ∀ r ∈ d.records, P r)
    (hsuperseded : ∀ r ∈ d.records, P (superseded r)) :
    (d.checkRegistration record = none → P (d.stamped record clk)) ↔
      ∀ r ∈ ((Operation.registerEntry record clk).step F d).records, P r := by
  show _ ↔ ∀ r ∈ (d.registerEntry record clk).2.records, P r
  cases hcheck : d.checkRegistration record with
  | some f =>
      rw [registerEntry_rejected hcheck]
      exact iff_of_true nofun hold
  | none =>
      have hedited : ∀ r ∈ d.records.map fun r => if displaces d record r then superseded r else r,
          P r := by
        refine List.forall_mem_map.mpr fun r hr => ?_
        split
        · exact hsuperseded r hr
        · exact hold r hr
      rw [records_registerEntry record clk hcheck, List.forall_mem_append,
        List.forall_mem_singleton, and_iff_right hedited, imp_iff_right rfl]

/-! ## 4. What is edited for certain -/

/-- What the loss of a boot does to a record. -/
def lose (d : Directory) (b : WorkerBootId) (r : DirectoryRecord) : DirectoryRecord :=
  if d.workerLive b && r.workerBoot == b then loseRecord r else r

theorem records_onWorkerLoss (d : Directory) (b : WorkerBootId) (reason : Bytes) :
    (d.onWorkerLoss b reason).2.records = d.records.map (lose d b) := by
  unfold onWorkerLoss lose
  cases hlive : d.workerLive b with
  | false => simp
  | true => simp [recomputeAccounting]

theorem lose_of_hit {d : Directory} {b : WorkerBootId} {r : DirectoryRecord}
    (hlive : d.workerLive b = true) (hboot : r.workerBoot = b) : lose d b r = loseRecord r :=
  if_pos (by simp [hlive, hboot])

section Certain

variable {d : Directory} {i : Nat} {r : DirectoryRecord}

/-- A record the loss of its boot finds. -/
theorem lost_at (F : Type) [ScoreArith F] {b : WorkerBootId} (reason : Bytes)
    (hr : d.records[i]? = some r) (hlive : d.workerLive b = true) (hboot : r.workerBoot = b) :
    ((Operation.onWorkerLoss b reason).step F d).records[i]? = some (loseRecord r) := by
  show (d.onWorkerLoss b reason).2.records[i]? = _
  rw [records_onWorkerLoss, List.getElem?_map, hr, Option.map_some, lose_of_hit hlive hboot]

/-- A record a registration takes the place of. -/
theorem displaced_at (F : Type) [ScoreArith F] {record : DirectoryRecord}
    (clk : Nat → TimestampNs) (hr : d.records[i]? = some r)
    (hcheck : d.checkRegistration record = none) (hhit : displaces d record r = true) :
    ((Operation.registerEntry record clk).step F d).records[i]? = some (superseded r) := by
  show (d.registerEntry record clk).2.records[i]? = _
  have hi := (List.getElem?_eq_some_iff.mp hr).1
  rw [records_registerEntry record clk hcheck,
    List.getElem?_append_left (by rw [List.length_map]; exact hi), List.getElem?_map, hr,
    Option.map_some, if_pos hhit]

/-- A current record an invalidation selects. -/
theorem invalidateWith_at {env : AuthorityEnvelope} {affected : UInt32} {message : Bytes}
    {act : Directory → Directory} {clk : Nat → TimestampNs} (sel : DirectoryRecord → Bool)
    (also : DirectoryRecord → DirectoryRecord)
    (hact : (act d).records = invalidateRecords sel also clk d.records)
    (hr : d.records[i]? = some r) (hhit : (env.epoch == d.epoch && sel r) = true)
    (hcur : r.current = true) :
    (d.invalidateWith env affected message act).2.records[i]? = some
      (also { r with current := false, lifecycle := .invalidated, updatedNs := clk i }) := by
  obtain ⟨hepoch, hsel⟩ := Bool.and_eq_true_iff.mp hhit
  have hpass : firstFailure [(env.epoch != d.epoch, (⟨.staleEpoch, "stale epoch"⟩ : Failure))] =
      none := by
    rw [firstFailure_eq_none]
    simpa using hepoch
  unfold invalidateWith
  rw [guarded_of_none hpass]
  show (act d).records[i]? = _
  rw [hact, invalidateRecords, List.getElem?_mapIdx, hr, Option.map_some,
    if_pos (by rw [hsel, hcur]; rfl)]

section Updates

variable {id : DirectoryRecordId} {env : AuthorityEnvelope} {now : TimestampNs}
  {write : DirectoryRecord → DirectoryRecord} {j : Fin d.records.length}

/-- An admitted relabelling that `can_lifecycle` lets through. -/
theorem updateLifecycle_done {s : LifecycleState} (hj : Admitted id env d j)
    (hcan : canLifecycle (d.records.get j).lifecycle s = true) :
    (d.updateLifecycle id s env now).2 =
      storeAt d j (restamped s env now (d.records.get j)) := by
  unfold updateLifecycle
  rw [hj.found]
  simp only [hj.authorised, hcan]
  rfl

/-- An admitted evidence update of a record that is not frozen. -/
theorem updateEvidence_done (hj : Admitted id env d j) (hfree : ¬ Frozen (d.records.get j)) :
    (updateEvidence write id env now d).2 =
      storeAt d j (restamped (deriveLifecycle (write (d.records.get j))) env now
        (write (d.records.get j))) := by
  rcases @updateEvidence_cases id env now d write with
    ⟨f, _, hno⟩ | ⟨i, hi, hcan, _⟩ | ⟨i, r, hi, rfl, _, h⟩
  · exact absurd hj (hno j)
  · rw [hi.unique hj] at hcan
    exact absurd ((canLifecycle_derived _ _).mp hcan) hfree
  · rw [h]
    obtain rfl := hi.unique hj
    rfl

/-- One of a record that is. -/
theorem updateEvidence_late (hj : Admitted id env d j) (hfrozen : Frozen (d.records.get j)) :
    (updateEvidence write id env now d).2 =
      { d with records := d.records.set j (write (d.records.get j)) } := by
  rcases @updateEvidence_cases id env now d write with
    ⟨f, _, hno⟩ | ⟨i, hi, _, h⟩ | ⟨i, r, hi, rfl, hcan, _⟩
  · exact absurd hj (hno j)
  · rw [h]
    obtain rfl := hi.unique hj
    rfl
  · obtain rfl := hi.unique hj
    have hno := (canLifecycle_derived _ (write (d.records.get i))).mpr hfrozen
    exact absurd (hno.symm.trans hcan) Bool.false_ne_true

/-- An assignment of evidence leaves the label, and whether the record is current. -/
theorem write_leaves {op : Operation} (h : op.evidence = some (id, env, write))
    (r : DirectoryRecord) : (write r).lifecycle = r.lifecycle ∧ (write r).current = r.current :=
  evidence_cases (P := fun _ write => (write r).lifecycle = r.lifecycle ∧
    (write r).current = r.current) (fun _ _ => ⟨rfl, rfl⟩) (fun _ _ => ⟨rfl, rfl⟩)
    (fun _ _ => ⟨rfl, rfl⟩) (fun _ _ => ⟨rfl, rfl⟩) h

theorem step_of_evidence (F : Type) [ScoreArith F] {op : Operation}
    (h : op.evidence = some (id, env, write)) (d : Directory) :
    ∃ now, op.step F d = (updateEvidence write id env now d).2 :=
  evidence_cases (P := fun op write => ∃ now, op.step F d = (updateEvidence write id env now d).2)
    (fun _ now => ⟨now, rfl⟩) (fun _ now => ⟨now, rfl⟩) (fun _ now => ⟨now, rfl⟩)
    (fun _ now => ⟨now, rfl⟩) h

/-- **What an admitted evidence update leaves on file**: the record as written, under its old
    label when it is frozen and under the derived one else. -/
theorem written_mem (F : Type) [ScoreArith F] {op : Operation}
    (h : op.evidence = some (id, env, write)) (hj : Admitted id env d j) :
    (Frozen (d.records.get j) ∧ write (d.records.get j) ∈ (op.step F d).records) ∨
      ∃ now, restamped (deriveLifecycle (write (d.records.get j))) env now
        (write (d.records.get j)) ∈ (op.step F d).records := by
  obtain ⟨now, hstep⟩ := step_of_evidence F h d
  rw [hstep]
  by_cases hfrozen : Frozen (d.records.get j)
  · rw [updateEvidence_late hj hfrozen]
    exact .inl ⟨hfrozen, List.mem_set j.isLt _⟩
  · rw [updateEvidence_done hj hfrozen]
    exact .inr ⟨now, List.mem_set j.isLt _⟩

end Updates

end Certain

end CacheDirectory
