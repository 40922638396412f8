/-
  File:      CacheDirectory/Invariants/Digests.lean
  Subject:   WHETHER A RECORD CARRIES THE DIGEST OF ITS FIELDS.

  The digest is computed at registration and again by recovery. It covers health, freshness,
  integrity, reachability and the authority fence; updates, the loss of a worker and two of the
  invalidations overwrite these and leave the digest as it is.

  * `unnoticed_iff` -- five fields overwritten leave the digest right exactly when they are not
    changed, or SHA-256 collides;
  * `Operation.KeepsDigests` -- what a call overwrites goes unnoticed;
  * `keepsDigests_iff` -- one call;
  * `digests_current_iff` -- along runs.
-/
import CacheDirectory.Invariants.IndexUpkeep
import CacheDirectory.Invariants.Descriptors
import CacheDirectory.Encoding.SemanticImages

namespace CacheDirectory

open Library Directory

/-! ## 1. What the digest covers -/

/-- The fields under the digest that a call can overwrite. -/
structure Covered where
  health : Health
  freshness : Freshness
  integrity : Integrity
  reachability : Reachability
  fence : UInt64

def covered (r : DirectoryRecord) : Covered where
  health := r.health
  freshness := r.freshness
  integrity := r.integrity
  reachability := r.reachability
  fence := r.authority.fence

def overwrite (c : Covered) (r : DirectoryRecord) : DirectoryRecord :=
  { r with
    health := c.health
    freshness := c.freshness
    integrity := c.integrity
    reachability := c.reachability
    authority := { r.authority with fence := c.fence } }

@[simp] theorem overwrite_covered (r : DirectoryRecord) : overwrite (covered r) r = r := rfl

/-- Two byte strings under one SHA-256 value. -/
def Collides (a b : Bytes) : Prop := a ≠ b ∧ Digest.sha256 a = Digest.sha256 b

/-- The assignment changes none of the fields, or the digest does not see it. -/
def Unnoticed (c : Covered) (r : DirectoryRecord) : Prop :=
  c = covered r ∨ Collides (semanticImage (overwrite c r)) (semanticImage r)

/-- The image tells the five fields. -/
theorem covered_of_image {c c' : Covered} {r : DirectoryRecord}
    (h : semanticImage (overwrite c r) = semanticImage (overwrite c' r)) : c = c' := by
  have hat {β : Type} (f : SemanticFields → β) :
      f (semanticFields (overwrite c r)) = f (semanticFields (overwrite c' r)) :=
    congrArg f (semanticImage_eq_iff.mp h)
  cases c
  cases c'
  rw [Covered.mk.injEq]
  exact ⟨hat (·.health), hat (·.freshness), hat (·.integrity), hat (·.reachability),
    hat (·.authority.fence)⟩

/-- **What goes unnoticed leaves the digest as it is, and nothing else does.** -/
theorem unnoticed_iff {c : Covered} {r : DirectoryRecord} :
    Unnoticed c r ↔ semanticDigestOf (overwrite c r) = semanticDigestOf r := by
  constructor
  · rintro (rfl | ⟨-, hsame⟩)
    · rw [overwrite_covered]
    · exact hsame
  · intro h
    by_cases himage : semanticImage (overwrite c r) = semanticImage r
    · exact .inl (covered_of_image himage)
    · exact .inr ⟨himage, h⟩

/-! ## 2. Records -/

/-- The record carries the digest of its fields. -/
def CarriesDigest (r : DirectoryRecord) : Prop := r.semanticDigest = semanticDigestOf r

def Directory.DigestsCurrent (d : Directory) : Prop := ∀ r ∈ d.records, CarriesDigest r

section Records

variable {r r' : DirectoryRecord} {c : Covered}

/-- A record rewritten under its old digest. -/
theorem carriesDigest_iff (hr : CarriesDigest r) (hdigest : r'.semanticDigest = r.semanticDigest)
    (himage : semanticImage r' = semanticImage (overwrite c r)) :
    Unnoticed c r ↔ CarriesDigest r' := by
  have hbehind : semanticDigestOf r' = semanticDigestOf (overwrite c r) :=
    congrArg Digest.sha256 himage
  rw [unnoticed_iff, CarriesDigest, hdigest, hbehind, hr]
  exact eq_comm

theorem carriesDigest_stamped (d : Directory) (record : DirectoryRecord)
    (clk : Nat → TimestampNs) : CarriesDigest (d.stamped record clk) := rfl

theorem carriesDigest_recoverRecord (r : DirectoryRecord) : CarriesDigest (recoverRecord r) := rfl

/-- What the loss of its worker writes into a record. -/
def lostFields (r : DirectoryRecord) : Covered :=
  if isProcessLocal r.domain then
    { covered r with freshness := .revalidationRequired, reachability := .revalidationRequired }
  else { covered r with freshness := .stale, reachability := .unreachable }

theorem carriesDigest_loseRecord (hr : CarriesDigest r) :
    Unnoticed (lostFields r) r ↔ CarriesDigest (loseRecord r) := by
  unfold lostFields loseRecord
  split
  · exact carriesDigest_iff hr rfl rfl
  · exact carriesDigest_iff hr rfl rfl

end Records

/-! ## 3. Calls -/

/-- The evidence update finds no record, or what it writes goes unnoticed: the field and the fence,
    or the field alone where the derived label is refused. -/
def KeepsDigest (assign : Covered → Covered) (id : DirectoryRecordId) (env : AuthorityEnvelope)
    (d : Directory) : Prop :=
  ∀ i, Admitted id env d i →
    let r := d.records.get i
    (Frozen r → Unnoticed (assign (covered r)) r) ∧
      (¬ Frozen r → Unnoticed { assign (covered r) with fence := env.fence } r)

/-- What the call overwrites goes unnoticed. -/
def Operation.KeepsDigests (op : Operation) (d : Directory) : Prop :=
  match op with
  | .onWorkerLoss b _ =>
      d.workerLive b = true → ∀ r ∈ d.records, r.workerBoot = b → Unnoticed (lostFields r) r
  | .updateHealth id h env _ => KeepsDigest (fun c => { c with health := h }) id env d
  | .updateFreshness id f env _ => KeepsDigest (fun c => { c with freshness := f }) id env d
  | .updateReachability id reach env _ =>
      KeepsDigest (fun c => { c with reachability := reach }) id env d
  | .updateIntegrity id integ env _ => KeepsDigest (fun c => { c with integrity := integ }) id env d
  | .updateLifecycle id s env _ =>
      ∀ i, Admitted id env d i → canLifecycle (d.records.get i).lifecycle s = true →
        Unnoticed { covered (d.records.get i) with fence := env.fence } (d.records.get i)
  | .invalidateLocation loc env _ _ =>
      env.epoch = d.epoch → ∀ r ∈ d.records, r.location = loc → r.current = true →
        Unnoticed { covered r with reachability := .unreachable } r
  | .invalidateWorkerBoot b env _ _ =>
      env.epoch = d.epoch → ∀ r ∈ d.records, r.workerBoot = b → r.current = true →
        Unnoticed { covered r with reachability := .unreachable } r
  | _ => True

section Calls

variable {F : Type} [ScoreArith F] {d : Directory}

/-- One record assigned in a vector whose digests are current. -/
theorem digests_set (hd : d.DigestsCurrent) (i : Fin d.records.length) (x : DirectoryRecord) :
    CarriesDigest x ↔ ∀ r ∈ d.records.set i x, CarriesDigest r := by
  constructor
  · intro hx r hr
    rcases List.mem_or_eq_of_mem_set hr with hold | rfl
    · exact hd r hold
    · exact hx
  · intro h
    exact h x (List.mem_set i.isLt x)

theorem keepsDigest_iff (write : DirectoryRecord → DirectoryRecord) (assign : Covered → Covered)
    (hwrite : ∀ r, write r = overwrite (assign (covered r)) r) (id : DirectoryRecordId)
    (env : AuthorityEnvelope) (now : TimestampNs) (hd : d.DigestsCurrent) :
    KeepsDigest assign id env d ↔ (updateEvidence write id env now d).2.DigestsCurrent := by
  by_cases hadmitted : ∃ i, Admitted id env d i
  · obtain ⟨i, hi⟩ := hadmitted
    have hcarries : CarriesDigest (d.records.get i) := hd _ (List.get_mem _ i)
    have hone : KeepsDigest assign id env d ↔
        (Frozen (d.records.get i) →
          Unnoticed (assign (covered (d.records.get i))) (d.records.get i)) ∧
        (¬ Frozen (d.records.get i) →
          Unnoticed { assign (covered (d.records.get i)) with fence := env.fence }
            (d.records.get i)) := hi.forall_iff
    by_cases hfrozen : Frozen (d.records.get i)
    · have hbehind : Unnoticed (assign (covered (d.records.get i))) (d.records.get i) ↔
          CarriesDigest (write (d.records.get i)) := by
        rw [hwrite]
        exact carriesDigest_iff hcarries rfl rfl
      rw [updateEvidence_late hi hfrozen, hone, imp_iff_right hfrozen,
        and_iff_left fun hfree => absurd hfrozen hfree, hbehind]
      exact digests_set hd i (write (d.records.get i))
    · have hbehind : Unnoticed { assign (covered (d.records.get i)) with fence := env.fence }
          (d.records.get i) ↔ CarriesDigest (restamped
            (deriveLifecycle (write (d.records.get i))) env now (write (d.records.get i))) := by
        rw [hwrite]
        exact carriesDigest_iff hcarries rfl rfl
      rw [updateEvidence_done hi hfrozen, hone, imp_iff_right hfrozen,
        and_iff_right fun h => absurd h hfrozen, hbehind]
      exact digests_set hd i _
  · have hnone : ∀ i, ¬ Admitted id env d i := not_exists.mp hadmitted
    rcases @updateEvidence_cases id env now d write with
      ⟨f, hend, _⟩ | ⟨i, hi, _⟩ | ⟨i, _, hi, _⟩
    · rw [hend]
      exact iff_of_true (fun i hi => absurd hi (hnone i)) hd
    · exact absurd hi (hnone i)
    · exact absurd hi (hnone i)

/-- An invalidation whose loop writes `fields r` into the record. -/
theorem invalidateWith_digests {env : AuthorityEnvelope} {affected : UInt32} {message : Bytes}
    {act : Directory → Directory} {sel : DirectoryRecord → Bool}
    {also : DirectoryRecord → DirectoryRecord} {clk : Nat → TimestampNs}
    (fields : DirectoryRecord → Covered)
    (hact : (act d).records = invalidateRecords sel also clk d.records)
    (halso : ∀ r now, ∃ r', also { r with
        current := false, lifecycle := .invalidated, updatedNs := now } = r' ∧
      r'.semanticDigest = r.semanticDigest ∧
        semanticImage r' = semanticImage (overwrite (fields r) r))
    (hd : d.DigestsCurrent) :
    (env.epoch = d.epoch → ∀ r ∈ d.records, sel r = true → r.current = true →
        Unnoticed (fields r) r) ↔
      (d.invalidateWith env affected message act).2.DigestsCurrent := by
  cases hepoch : env.epoch == d.epoch with
  | false =>
      rw [invalidateWith_stale hepoch]
      exact iff_of_true (fun h => absurd h (beq_eq_false_iff_ne.mp hepoch)) hd
  | true =>
      rw [invalidateWith_granted hepoch, imp_iff_right (beq_iff_eq.mp hepoch)]
      show _ ↔ ∀ r ∈ (act d).records, CarriesDigest r
      rw [hact]
      constructor
      · intro h r' hr'
        obtain ⟨i, hi, rfl⟩ := List.mem_mapIdx.mp hr'
        have hr := List.getElem_mem hi
        split
        case isTrue hboth =>
            obtain ⟨hsel, hcur⟩ := Bool.and_eq_true_iff.mp hboth
            obtain ⟨_, rfl, hdigest, himage⟩ := halso d.records[i] (clk i)
            exact (carriesDigest_iff (hd _ hr) hdigest himage).mp (h _ hr hsel hcur)
        case isFalse => exact hd _ hr
      · intro h r hr hsel hcur
        obtain ⟨i, hi, rfl⟩ := List.getElem_of_mem hr
        obtain ⟨r', heq, hdigest, himage⟩ := halso d.records[i] (clk i)
        refine (carriesDigest_iff (hd _ hr) hdigest himage).mpr (h r' ?_)
        refine List.mem_mapIdx.mpr ⟨i, hi, ?_⟩
        rw [if_pos (by rw [hsel, hcur]; rfl), heq]

/-- The three whose loop writes none of the fields. -/
theorem unmarked_digests {env : AuthorityEnvelope} {affected : UInt32} {message : Bytes}
    {act : Directory → Directory} {clk : Nat → TimestampNs} (sel : DirectoryRecord → Bool)
    (hact : (act d).records = invalidateRecords sel id clk d.records) (hd : d.DigestsCurrent) :
    (d.invalidateWith env affected message act).2.DigestsCurrent := by
  refine (invalidateWith_digests covered hact (fun r now => ⟨_, rfl, rfl, rfl⟩) hd).mp ?_
  exact fun _ _ _ _ _ => .inl rfl

/-- The two whose loop also marks what it selects unreachable. -/
theorem unreachable_digests {env : AuthorityEnvelope} {affected : UInt32} {message : Bytes}
    {act : Directory → Directory} {Hit : DirectoryRecord → Prop} {clk : Nat → TimestampNs}
    (sel : DirectoryRecord → Bool)
    (hact : (act d).records = invalidateRecords sel
      (fun r => { r with reachability := .unreachable }) clk d.records)
    (hsel : ∀ r, sel r = true ↔ Hit r) (hd : d.DigestsCurrent) :
    (env.epoch = d.epoch → ∀ r ∈ d.records, Hit r → r.current = true →
        Unnoticed { covered r with reachability := .unreachable } r) ↔
      (d.invalidateWith env affected message act).2.DigestsCurrent := by
  simp only [← hsel]
  exact invalidateWith_digests (fun r => { covered r with reachability := .unreachable }) hact
    (fun r now => ⟨_, rfl, rfl, rfl⟩) hd

theorem updateLifecycle_digests (id : DirectoryRecordId) (s : LifecycleState)
    (env : AuthorityEnvelope) (now : TimestampNs) (hd : d.DigestsCurrent) :
    (∀ i, Admitted id env d i → canLifecycle (d.records.get i).lifecycle s = true →
        Unnoticed { covered (d.records.get i) with fence := env.fence } (d.records.get i)) ↔
      (d.updateLifecycle id s env now).2.DigestsCurrent := by
  by_cases haccepted : ∃ i, Admitted id env d i ∧ canLifecycle (d.records.get i).lifecycle s = true
  · obtain ⟨i, hi, hcan⟩ := haccepted
    have hbehind : Unnoticed { covered (d.records.get i) with fence := env.fence }
        (d.records.get i) ↔ CarriesDigest (restamped s env now (d.records.get i)) :=
      carriesDigest_iff (hd _ (List.get_mem _ i)) rfl rfl
    rw [updateLifecycle_done hi hcan, hi.forall_iff, imp_iff_right hcan, hbehind]
    exact digests_set hd i _
  · refine iff_of_true (fun i hi hcan => absurd ⟨i, hi, hcan⟩ haccepted) ?_
    rcases @updateLifecycle_cases id env now d s with ⟨f, hend⟩ | ⟨i, r, hi, rfl, hcan, hend⟩
    · rw [hend]
      exact hd
    · exact absurd ⟨i, hi, hcan⟩ haccepted

/-- The calls that write none of the fields into a record on file. -/
def Operation.sparesFields : Operation → Bool
  | .onWorkerLoss _ _ => false
  | .updateLifecycle _ _ _ _ => false
  | .invalidateState _ _ _ _ _ => false
  | .invalidateLocation _ _ _ _ => false
  | .invalidateReplica _ _ _ _ => false
  | .invalidateCache _ _ _ _ => false
  | .invalidateWorkerBoot _ _ _ _ => false
  | .recoverFromBuffer _ => false
  | op => op.evidence.isNone

/-- Such an operation is no update of evidence. -/
theorem evidence_none {op : Operation} (hop : op.sparesFields = true) : op.evidence = none := by
  cases h : op.evidence with
  | none => rfl
  | some e =>
      have hwrites : op.sparesFields = false :=
        evidence_cases (P := fun op _ => op.sparesFields = false) (fun _ _ => rfl) (fun _ _ => rfl)
          (fun _ _ => rfl) (fun _ _ => rfl) h
      exact absurd (hwrites.symm.trans hop) Bool.false_ne_true

theorem digests_spared {op : Operation} (hop : op.sparesFields = true) (hd : d.DigestsCurrent) :
    (op.step F d).DigestsCurrent := by
  have hrecovery : op.isRecovery = false := by
    cases op with
    | recoverFromBuffer buf => cases hop
    | _ => rfl
  refine forall_records_step F hrecovery (fun r hr r' hedited => ?_) fun r hr => ?_
  · have hcarries := hd r hr
    cases hedited with
    | untouched => exact hcarries
    | lost => cases hop
    | displaced => exact hcarries
    | late evidence =>
        rw [evidence_none hop] at evidence
        cases evidence
    | evidence now evidence =>
        rw [evidence_none hop] at evidence
        cases evidence
    | relabelled => cases hop
    | invalidated now reach hit =>
        cases op with
        | invalidateState => cases hop
        | invalidateLocation => cases hop
        | invalidateReplica => cases hop
        | invalidateCache => cases hop
        | invalidateWorkerBoot => cases hop
        | _ => cases hit
    | buried => exact hcarries
  · cases op with
    | registerEntry record clk =>
        cases hcheck : d.checkRegistration record with
        | some f =>
            rw [appended_rejected hcheck] at hr
            cases hr
        | none =>
            rw [appended_admitted hcheck, List.mem_singleton] at hr
            rw [hr]
            exact carriesDigest_stamped d record clk
    | _ => cases hr

/-- **One call leaves every record with the digest of its fields exactly when what it overwrites
    goes unnoticed.** -/
theorem keepsDigests_iff (F : Type) [ScoreArith F] (op : Operation) (d : Directory)
    (hd : d.DigestsCurrent) : op.KeepsDigests d ↔ (op.step F d).DigestsCurrent := by
  cases op with
  | onWorkerLoss b reason =>
      show _ ↔ ∀ r ∈ (d.onWorkerLoss b reason).2.records, CarriesDigest r
      rw [records_onWorkerLoss, List.forall_mem_map]
      constructor
      · intro h r hr
        unfold lose
        split
        case isTrue hhit =>
            obtain ⟨hlive, hboot⟩ := Bool.and_eq_true_iff.mp hhit
            exact (carriesDigest_loseRecord (hd r hr)).mp (h hlive r hr (beq_iff_eq.mp hboot))
        case isFalse => exact hd r hr
      · intro h hlive r hr hboot
        have hbehind := h r hr
        rw [lose_of_hit hlive hboot] at hbehind
        exact (carriesDigest_loseRecord (hd r hr)).mpr hbehind
  | updateHealth id h env now =>
      exact keepsDigest_iff (fun r => { r with health := h })
        (fun c => { c with health := h }) (fun _ => rfl) id env now hd
  | updateFreshness id f env now =>
      exact keepsDigest_iff (fun r => { r with freshness := f })
        (fun c => { c with freshness := f }) (fun _ => rfl) id env now hd
  | updateReachability id reach env now =>
      exact keepsDigest_iff (fun r => { r with reachability := reach })
        (fun c => { c with reachability := reach }) (fun _ => rfl) id env now hd
  | updateIntegrity id integ env now =>
      exact keepsDigest_iff (fun r => { r with integrity := integ })
        (fun c => { c with integrity := integ }) (fun _ => rfl) id env now hd
  | updateLifecycle id s env now => exact updateLifecycle_digests id s env now hd
  | invalidateState s g env reason clk =>
      exact iff_of_true trivial (unmarked_digests (d.selectState s g env) rfl hd)
  | invalidateReplica rep env reason clk =>
      exact iff_of_true trivial (unmarked_digests (fun r => r.replica == rep) rfl hd)
  | invalidateCache c env reason clk =>
      exact iff_of_true trivial (unmarked_digests (fun r => r.cache == c) rfl hd)
  | invalidateLocation loc env reason clk =>
      exact unreachable_digests (fun r => r.location == loc) rfl (fun r => beq_iff_eq) hd
  | invalidateWorkerBoot b env reason clk =>
      exact unreachable_digests (fun r => r.workerBoot == b) rfl (fun r => beq_iff_eq) hd
  | recoverFromBuffer buf =>
      refine iff_of_true trivial (recover_keeps F hd fun s _ _ => ?_)
      exact List.forall_mem_map.mpr fun r _ => carriesDigest_recoverRecord r
  | _ => exact iff_of_true trivial (digests_spared rfl hd)

end Calls

/-! ## 4. Runs -/

/-- **Every record carries the digest of its present fields**, in every state reached, exactly
    along the runs in which all that is overwritten goes unnoticed. -/
theorem digests_current_iff (F : Type) [ScoreArith F] (ops : List Operation) :
    Follows (Operation.step F) Operation.KeepsDigests {} ops ↔
      ∀ d, Reached F ops d → ∀ r ∈ d.records, r.semanticDigest = semanticDigestOf r :=
  follows_iff_visited (keepsDigests_iff F) ops {} fun r hr => by cases hr

/-- A copy is registered, and its owner reports it degraded. -/
def degrading : List Operation := registeredOnce ++ [healthUpdate .degraded]

def degraded : Directory := after (Operation.step Float) {} degrading

/-- **The counterexample**: the report is accepted, and the record keeps the digest of a healthy
    copy. -/
theorem degraded_digest_outdated :
    Reached Float degrading degraded ∧
      (healthUpdate .degraded).Accepted Float (after (Operation.step Float) {} registeredOnce) ∧
      degraded.records.map (fun r => decide (r.semanticDigest = semanticDigestOf r)) = [false] := by
  refine ⟨after_mem_visited _ _ _, ?_, ?_⟩
  all_goals decide +kernel

end CacheDirectory
