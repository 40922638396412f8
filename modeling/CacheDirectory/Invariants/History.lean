/-
  File:      CacheDirectory/Invariants/History.lean
  Subject:   THE RECORD VECTOR IS A HISTORY.

  No call but a recovery removes a record from the vector or moves one. A record once committed
  keeps its identity and its content; it can stop being current, and starts again only where a
  recovery brings back an older snapshot. But for that, only a registration appends.

  * `appends_step` -- one call: the vector is kept and followed by what a registration commits;
  * `kept_at_visited` -- a run without recoveries: the record at a position stays that record;
  * `OwnReachedIn` -- reached with a number of commits behind it;
  * `Ordered`, `history_append_only` -- the record generations increase along the vector, up to
    the directory's, as long as the counter has not come round;
  * `copyOf`, `one_current_per_copy` -- no copy has two current records, and a registration sent
    again is refused.
-/
import CacheDirectory.Invariants.Edits
import CacheDirectory.Recovery.Fidelity

namespace CacheDirectory

open Library Directory

/-! ## 1. One call -/

/-- The call is a registration that is admitted. -/
def Operation.Registers (op : Operation) (d : Directory) : Prop :=
  ∃ record clk, op = .registerEntry record clk ∧ d.checkRegistration record = none

/-- What the call does to the vector: every record on file is kept, and an admitted registration
    puts one current record behind them. -/
def Appends (op : Operation) (d d' : Directory) : Prop :=
  ∃ l new, List.Forall₂ Kept d.records l ∧ d'.records = l ++ new ∧
    (op.Registers d ∧ (∃ r, new = [r] ∧ r.current = true) ∨ ¬ op.Registers d ∧ new = [])

/-- **Every call but a recovery only appends.** -/
theorem appends_step (F : Type) [ScoreArith F] {op : Operation} (hop : op.isRecovery = false)
    (d : Directory) : Appends op d (op.step F d) := by
  cases hadd : op.addsRecords with
  | false =>
      have hquiet : ¬ op.Registers d := by
        rintro ⟨record, clk, rfl, _⟩
        cases hadd
      exact ⟨_, [], (recordsKept_step F op hadd d).records, (List.append_nil _).symm,
        .inr ⟨hquiet, rfl⟩⟩
  | true =>
      cases op with
      | recoverFromBuffer buf => cases hop
      | registerEntry record clk =>
          show Appends _ d (d.registerEntry record clk).2
          cases hcheck : d.checkRegistration record with
          | some f =>
              have hno : ¬ (Operation.registerEntry record clk).Registers d := by
                intro h
                obtain ⟨record', clk', heq, hnone⟩ := h
                cases heq
                rw [hcheck] at hnone
                cases hnone
              rw [registerEntry_rejected hcheck]
              exact ⟨_, [], forall₂_refl Kept.refl _, (List.append_nil _).symm, .inr ⟨hno, rfl⟩⟩
          | none =>
              have hc := committed_registerEntry clk hcheck
              exact ⟨_, [d.stamped record clk], forall₂_supersedeFor d _, hc.records,
                .inl ⟨⟨record, clk, rfl, hcheck⟩, _, rfl, rfl⟩⟩
      | _ => cases hadd

/-- The record at a position stays there. -/
theorem kept_at_step (F : Type) [ScoreArith F] {op : Operation} (hop : op.isRecovery = false)
    {d : Directory} {i : Nat} {r : DirectoryRecord} (h : d.records[i]? = some r) :
    ∃ r', (op.step F d).records[i]? = some r' ∧ Kept r r' := by
  obtain ⟨l, new, hl, hrecords, _⟩ := appends_step F hop d
  rw [hrecords]
  exact exists_getElem?_of_forall₂ hl new h

/-- **Along a run without recoveries** the record at a position stays that record. -/
theorem kept_at_visited (F : Type) [ScoreArith F] {ops : List Operation}
    (hops : ∀ op ∈ ops, op.isRecovery = false) {d : Directory} {i : Nat} {r : DirectoryRecord}
    (h : d.records[i]? = some r) :
    ∀ t ∈ visited (Operation.step F) d ops, ∃ r', t.records[i]? = some r' ∧ Kept r r' := by
  have hstays : ∀ (op : Operation) (t : Directory),
      (∃ r', t.records[i]? = some r' ∧ Kept r r') → op.isRecovery = false →
        ∃ r', (op.step F t).records[i]? = some r' ∧ Kept r r' := by
    rintro op t ⟨x, hx, hkept⟩ hop
    obtain ⟨y, hy, hstep⟩ := kept_at_step F hop hx
    exact ⟨y, hy, hkept.trans hstep⟩
  exact visited_of_follows hstays ops d ⟨r, h, .refl r⟩ ((follows_const _ ops d).mpr hops)

/-! ## 2. Counted runs -/

/-- Reached with recovery of own snapshots only, with `n` commits behind it; behind a recovery that
    is the greater of the two counts, the process's and the snapshot's. -/
inductive OwnReachedIn (F : Type) [ScoreArith F] : Nat → Directory → Prop where
  | start : OwnReachedIn F 0 {}
  | step (n : Nat) (d : Directory) (op : Operation) (h : OwnReachedIn F n d)
      (hop : op.isRecovery = false) :
      OwnReachedIn F (n + (op.appended d).length) (op.step F d)
  | recover (n m : Nat) (d d' : Directory) (o : MapOrders) (h : OwnReachedIn F n d)
      (h' : OwnReachedIn F m d') (hfit : d'.SizesFit) :
      OwnReachedIn F (max n m) ((Operation.recoverFromBuffer (d'.saveToBuffer o).2).step F d)

/-! ## 3. The record generations -/

/-- The record generations of the vector, in order. -/
def Directory.recordGenerations (d : Directory) : List UInt64 :=
  d.records.map (·.recordGeneration.value)

/-- The record generations increase up to the directory's, which counts the commits. -/
structure Ordered (n : Nat) (d : Directory) : Prop where
  increasing : d.recordGenerations.Pairwise (· < ·)
  bound : ∀ g ∈ d.recordGenerations, g ≤ d.directoryGeneration.value
  count : d.directoryGeneration.value.toNat ≤ n

theorem Kept.recordGeneration {r r' : DirectoryRecord} (h : Kept r r') :
    r'.recordGeneration = r.recordGeneration := congrArg (·.recordGeneration) h.core

namespace Ordered

variable {n : Nat} {d d' : Directory}

theorem start : Ordered 0 {} :=
  ⟨.nil, fun _ h => (List.not_mem_nil h).elim, Nat.le_refl _⟩

theorem mono {m : Nat} (h : Ordered n d) (hle : n ≤ m) : Ordered m d :=
  ⟨h.increasing, h.bound, Nat.le_trans h.count hle⟩

/-- Two directories that agree on all the generations. -/
theorem of_same (h : Ordered n d) (hr : d'.recordGenerations = d.recordGenerations)
    (hg : d'.directoryGeneration = d.directoryGeneration) : Ordered n d' := by
  refine ⟨?_, ?_, ?_⟩
  · rw [hr]
    exact h.increasing
  · rw [hr, hg]
    exact h.bound
  · rw [hg]
    exact h.count

/-- The commit gives the next generation to the record and to the directory. -/
theorem commit (h : Ordered n d) (hn : n + 1 < 2 ^ 64) {g : UInt64}
    (hg : g = d.directoryGeneration.value + 1)
    (hr : d'.recordGenerations = d.recordGenerations ++ [g])
    (hd : d'.directoryGeneration.value = g) : Ordered (n + 1) d' := by
  have hcount := h.count
  have hnext : g.toNat = d.directoryGeneration.value.toNat + 1 := by
    rw [hg, UInt64.toNat_add]
    exact Nat.mod_eq_of_lt (by rw [UInt64.toNat_one]; omega)
  have habove (x : UInt64) (hx : x ∈ d.recordGenerations) : x < g := by
    have hle := UInt64.le_iff_toNat_le.mp (h.bound x hx)
    rw [UInt64.lt_iff_toNat_lt]
    omega
  refine ⟨?_, fun x hx => ?_, ?_⟩
  · rw [hr, List.pairwise_append]
    refine ⟨h.increasing, List.pairwise_singleton _ _, fun x hx y hy => ?_⟩
    rw [List.mem_singleton.mp hy]
    exact habove x hx
  · rw [hr] at hx
    rw [hd]
    rcases List.mem_append.mp hx with hold | hnew
    · exact UInt64.le_of_lt (habove x hold)
    · rw [List.mem_singleton.mp hnew]
      exact UInt64.le_refl _
  · rw [hd, hnext]
    omega

/-- One call, as long as the counter does not come round. -/
theorem step {F : Type} [ScoreArith F] {op : Operation} (hop : op.isRecovery = false)
    (h : Ordered n d) (hn : n + (op.appended d).length < 2 ^ 64) :
    Ordered (n + (op.appended d).length) (op.step F d) := by
  cases hadd : op.addsRecords with
  | false =>
      have hsame := h.of_same ((recordsKept_step F op hadd d).map_eq fun _ _ hk =>
        congrArg StrongValue.value hk.recordGeneration) (restKept_step F hadd d).directoryGeneration
      exact hsame.mono (Nat.le_add_right _ _)
  | true =>
      cases op with
      | recoverFromBuffer buf => cases hop
      | registerEntry record clk =>
          show Ordered _ (d.registerEntry record clk).2
          cases hcheck : d.checkRegistration record with
          | some f =>
              rw [registerEntry_rejected hcheck]
              exact h.mono (Nat.le_add_right _ _)
          | none =>
              rw [appended_admitted hcheck] at hn ⊢
              refine h.commit hn rfl ?_ ?_
              · unfold recordGenerations
                rw [(committed_registerEntry clk hcheck).records, List.map_append,
                  map_eq_of_forall₂ (fun _ _ hk => congrArg StrongValue.value
                    (Kept.recordGeneration hk)) (forall₂_supersedeFor d _)]
                rfl
              · rw [registerEntry_admitted hcheck]
                rfl
      | _ => cases hadd

end Ordered

/-- **Along every run with fewer than 2^64 commits** the generations are in order. -/
theorem ordered_ownReachedIn {F : Type} [ScoreArith F] {n : Nat} {d : Directory}
    (h : OwnReachedIn F n d) (hn : n < 2 ^ 64) : Ordered n d := by
  induction h with
  | start => exact .start
  | step n d op _ hop ih => exact (ih (by omega)).step hop hn
  | recover n m d d' o _ _ hfit ih ih' =>
      have hd := ih (by omega)
      have hd' := ih' (by omega)
      rcases step_recover_saved F (o := o) hfit d with hsame | ⟨_, hnew⟩
      · rw [hsame]
        exact hd.mono (Nat.le_max_left n m)
      · rw [hnew]
        refine Ordered.mono (hd'.of_same ?_ rfl) (Nat.le_max_right n m)
        unfold recordGenerations
        show ((d'.records.map (recordAsRead {})).map recoverRecord).map _ = _
        rw [List.map_map, List.map_map]
        rfl

/-- **The vector is a history**: calls only append, and along every run with fewer than 2^64
    commits the record generations increase strictly, up to the directory's own. -/
theorem history_append_only (F : Type) [ScoreArith F] :
    (∀ (op : Operation) (d : Directory), op.isRecovery = false → Appends op d (op.step F d)) ∧
      ∀ (n : Nat) (d : Directory), OwnReachedIn F n d → n < 2 ^ 64 →
        d.recordGenerations.Pairwise (· < ·) ∧
          ∀ g ∈ d.recordGenerations, g ≤ d.directoryGeneration.value := by
  refine ⟨fun op d hop => appends_step F hop d, fun n d hd hn => ?_⟩
  have hordered := ordered_ownReachedIn hd hn
  exact ⟨hordered.increasing, hordered.bound⟩

theorem length_appended_le (op : Operation) (d : Directory) : (op.appended d).length ≤ 1 := by
  cases op with
  | registerEntry record clk =>
      cases hcheck : d.checkRegistration record with
      | some f =>
          rw [appended_rejected hcheck]
          exact Nat.zero_le 1
      | none =>
          rw [appended_admitted hcheck]
          exact Nat.le_refl 1
  | _ => exact Nat.zero_le 1

/-- A run without recoveries commits at most once in each of its calls. -/
theorem ownReachedIn_after {F : Type} [ScoreArith F] : ∀ (ops : List Operation) (n : Nat)
    (d : Directory), (∀ op ∈ ops, op.isRecovery = false) → OwnReachedIn F n d →
    ∃ m, m ≤ n + ops.length ∧ OwnReachedIn F m (after (Operation.step F) d ops)
  | [], n, _, _, hd => ⟨n, Nat.le_refl _, hd⟩
  | op :: ops, n, d, h, hd => by
      have hone := length_appended_le op d
      obtain ⟨m, hm, hreached⟩ := ownReachedIn_after ops _ (op.step F d)
        (fun op' hop' => h op' (List.mem_cons_of_mem _ hop'))
        (.step n d op hd (h op List.mem_cons_self))
      refine ⟨m, ?_, hreached⟩
      rw [List.length_cons]
      omega

/-- The one copy of state 1 is registered, then once more at the next generation. -/
def registeredTwice : List Operation :=
  registeredOnce ++ [.registerEntry (copyRecord ⟨2⟩ ⟨2⟩) fun _ => 2]

def afterSecond : Directory := after (Operation.step Float) {} registeredTwice

theorem history_afterSecond :
    Appends (healthUpdate .healthy) afterSecond ((healthUpdate .healthy).step Float afterSecond) ∧
      afterSecond.recordGenerations = [1, 2] ∧ afterSecond.recordGenerations.Pairwise (· < ·) ∧
      ∀ g ∈ afterSecond.recordGenerations, g ≤ afterSecond.directoryGeneration.value := by
  obtain ⟨n, hn, hreached⟩ := ownReachedIn_after (F := Float) registeredTwice 0 {}
    (by decide +kernel) .start
  have hlength : registeredTwice.length = 6 := rfl
  exact ⟨(history_append_only Float).1 _ _ rfl, by decide +kernel,
    (history_append_only Float).2 n afterSecond hreached (by omega)⟩

/-- The snapshot of a directory, recovered. -/
def recoveryOf (d : Directory) : Operation := .recoverFromBuffer (d.saveToBuffer .stored).2

theorem step_recoveryOf (F : Type) [ScoreArith F] {d : Directory} (h : d.Restartable)
    (t : Directory) : (recoveryOf d).step F t = t.install (d.snapshotOf .stored) := by
  obtain ⟨ack, hrec⟩ := recover_saved (o := .stored) h t
  exact step_of_recovered F hrec

theorem ownReachedIn_recoveryOf {F : Type} [ScoreArith F] {n m : Nat} {d d' : Directory}
    (h : OwnReachedIn F n d) (h' : OwnReachedIn F m d') (hres : d'.Restartable) :
    OwnReachedIn F (max n m) ((recoveryOf d').step F d) :=
  .recover n m d d' .stored h h' (sizesFit_of_limits hres.counts hres.strings)

/-- The snapshot of the first registration, recovered behind the second. -/
def broughtBack : Directory := (recoveryOf afterRegistration).step Float afterSecond

/-- Reached with recovery of own snapshots only, with fewer than 2^64 commits. -/
def FewCommits (F : Type) [ScoreArith F] (d : Directory) : Prop :=
  ∃ n, n < 2 ^ 64 ∧ OwnReachedIn F n d

/-- **The counterexample**: recovery makes the superseded record current again, and the recovery of
    the later snapshot puts the second record behind it, without a registration. -/
theorem recovery_revives :
    (FewCommits Float afterSecond ∧ FewCommits Float broughtBack ∧
      FewCommits Float ((recoveryOf afterSecond).step Float broughtBack)) ∧
      afterSecond.records.map (fun r => (r.recordId, r.current)) = [(⟨1⟩, false), (⟨2⟩, true)] ∧
      broughtBack.records.map (fun r => (r.recordId, r.current)) = [(⟨1⟩, true)] ∧
      ((recoveryOf afterSecond).step Float broughtBack).records.map
        (fun r => (r.recordId, r.current)) = [(⟨1⟩, false), (⟨2⟩, true)] := by
  have hsecond : afterSecond.Restartable := by decide +kernel
  have hfirst : afterRegistration.Restartable := restartable_afterRegistration
  obtain ⟨n, hn, honce⟩ := ownReachedIn_after (F := Float) registeredOnce 0 {}
    (by decide +kernel) .start
  obtain ⟨m, hm, htwice⟩ := ownReachedIn_after (F := Float) registeredTwice 0 {}
    (by decide +kernel) .start
  have hlength : registeredOnce.length = 5 ∧ registeredTwice.length = 6 := ⟨rfl, rfl⟩
  have hback : OwnReachedIn Float (max m n) broughtBack :=
    ownReachedIn_recoveryOf htwice honce hfirst
  refine ⟨⟨⟨m, by omega, htwice⟩, ⟨max m n, by omega, hback⟩,
    ⟨max (max m n) m, by omega, ownReachedIn_recoveryOf hback htwice hsecond⟩⟩, ?_, ?_, ?_⟩
  · decide +kernel
  · unfold broughtBack
    rw [step_recoveryOf Float hfirst]
    decide +kernel
  · rw [step_recoveryOf Float hsecond]
    decide +kernel

/-! ## 4. One current record for each copy -/

/-- What tells copies apart: state, generation, replica, location and cache. -/
def copyOf (r : DirectoryRecord) :
    StateId × StateGeneration × ReplicaId × LocationId × CacheId :=
  (r.stateId, r.stateGeneration, r.replica, r.location, r.cache)

/-- No two current records stand for one copy. -/
def OneCurrent (records : List DirectoryRecord) : Prop :=
  records.Pairwise fun a b => a.current = true → b.current = true → copyOf a ≠ copyOf b

theorem Kept.copyOf_eq {r r' : DirectoryRecord} (h : Kept r r') : copyOf r' = copyOf r :=
  show copyOf (CacheDirectory.core r') = copyOf (CacheDirectory.core r) from congrArg copyOf h.core

theorem sameCopy_iff {record r : DirectoryRecord} :
    sameCopy record r = true ↔
      (r.current = true ∨ r.lifecycle = .superseded) ∧ copyOf r = copyOf record := by
  unfold sameCopy copyOf
  simp only [Bool.and_eq_true, Bool.or_eq_true, beq_iff_eq, Prod.mk.injEq, and_assoc]

theorem duplicateCheck_eq_none {d : Directory} {record : DirectoryRecord} :
    d.duplicateCheck record = none ↔ ∀ r ∈ d.records, ¬ sameCopy record r = true := by
  unfold duplicateCheck
  rw [Option.map_eq_none_iff, List.find?_eq_none]

/-- An admitted registration stands for a copy no current record stands for. -/
theorem fresh_copy {d : Directory} {record r : DirectoryRecord}
    (h : d.checkRegistration record = none) (hr : r ∈ d.records) (hcur : r.current = true) :
    copyOf r ≠ copyOf record := by
  intro heq
  have hnone := duplicateCheck_eq_none.mp (checkRegistration_eq_none.mp h).2.2.2
  exact hnone r hr (sameCopy_iff.mpr ⟨.inl hcur, heq⟩)

theorem oneCurrent_of_kept {l l' : List DirectoryRecord} (h : List.Forall₂ Kept l l')
    (hl : OneCurrent l) : OneCurrent l' := by
  refine pairwise_of_forall₂ (fun a b a' b' ha hb hab hcur hcur' => ?_) h hl
  rw [ha.copyOf_eq, hb.copyOf_eq]
  exact hab (ha.current hcur) (hb.current hcur')

/-- **One call keeps the law.** -/
theorem oneCurrent_step {F : Type} [ScoreArith F] {op : Operation} (hop : op.isRecovery = false)
    {d : Directory} (h : OneCurrent d.records) : OneCurrent (op.step F d).records := by
  cases hadd : op.addsRecords with
  | false => exact oneCurrent_of_kept (recordsKept_step F op hadd d).records h
  | true =>
      cases op with
      | recoverFromBuffer buf => cases hop
      | registerEntry record clk =>
          show OneCurrent (d.registerEntry record clk).2.records
          cases hcheck : d.checkRegistration record with
          | some f =>
              rw [registerEntry_rejected hcheck]
              exact h
          | none =>
              have hkept := forall₂_supersedeFor d (d.stamped record clk)
              rw [(committed_registerEntry clk hcheck).records]
              refine List.pairwise_append.mpr
                ⟨oneCurrent_of_kept hkept h, List.pairwise_singleton _ _, fun a ha b hb => ?_⟩
              rw [List.mem_singleton.mp hb]
              intro hcur _
              obtain ⟨r, hr, hra⟩ := exists_of_forall₂ hkept ha
              rw [hra.copyOf_eq]
              exact fresh_copy hcheck hr (hra.current hcur)
      | _ => cases hadd

/-- Recovery leaves alone what the law reads. -/
theorem oneCurrent_install {d : Directory} (h : OneCurrent d.records) (o : MapOrders)
    (t : Directory) : OneCurrent (t.install (d.snapshotOf o)).records := by
  show List.Pairwise _ ((d.records.map (recordAsRead {})).map recoverRecord)
  rw [List.map_map, List.pairwise_map]
  exact h

/-- A registration of a copy that has a current record is refused. -/
theorem refused_of_current {F : Type} [ScoreArith F] {d : Directory} {record r : DirectoryRecord}
    (clk : Nat → TimestampNs) (hr : r ∈ d.records) (hcur : r.current = true)
    (hcopy : copyOf r = copyOf record) : (Operation.registerEntry record clk).Refused F d := by
  refine (refused_iff rfl (by simp)).mpr fun hacc => ?_
  exact fresh_copy (accepted_registerEntry.mp hacc) hr hcur hcopy

/-- **One current record for each copy**, in every state reached with recovery of own snapshots;
    a registration of a copy that has one is refused and changes nothing; in particular one that
    is sent again, by anybody and at any time, while its record is still current. -/
theorem one_current_per_copy (F : Type) [ScoreArith F] :
    (∀ d, OwnReached F d → OneCurrent d.records) ∧
      (∀ (d : Directory) (record : DirectoryRecord) (clk : Nat → TimestampNs),
        (∃ r ∈ d.records, r.current = true ∧ copyOf r = copyOf record) →
          (Operation.registerEntry record clk).Refused F d) ∧
      ∀ (d : Directory) (record : DirectoryRecord) (clk clk' : Nat → TimestampNs)
        (ops : List Operation), d.checkRegistration record = none →
        (∀ op ∈ ops, op.isRecovery = false) →
        ∀ t ∈ visited (Operation.step F) ((Operation.registerEntry record clk).step F d) ops,
          (∃ r, t.records[d.records.length]? = some r ∧ r.current = true) →
            (Operation.registerEntry record clk').Refused F t := by
  refine ⟨fun d hd => ?_, fun d record clk hhas => ?_, fun d record clk clk' ops hcheck hops t ht
    hstill => ?_⟩
  · exact @ownReached_keeps F _ (fun t => OneCurrent t.records) .nil
      (fun op t hop h => oneCurrent_step hop h) oneCurrent_install d hd
  · obtain ⟨r, hr, hcur, hcopy⟩ := hhas
    exact refused_of_current clk hr hcur hcopy
  · have hc := committed_registerEntry clk hcheck
    have hlength := (forall₂_supersedeFor d (d.stamped record clk)).length_eq
    have hput : ((Operation.registerEntry record clk).step F d).records[d.records.length]? =
        some (d.stamped record clk) := by
      show (d.registerEntry record clk).2.records[d.records.length]? = _
      rw [hc.records, hlength, List.getElem?_concat_length]
    obtain ⟨r, hr, hkept⟩ := kept_at_visited F hops hput t ht
    obtain ⟨r', hr', hcur⟩ := hstill
    rw [hr] at hr'
    cases hr'
    exact refused_of_current clk' (List.mem_of_getElem? hr) hcur hkept.copyOf_eq

theorem one_current_afterRegistration :
    OneCurrent afterRegistration.records ∧
      (Operation.registerEntry (copyRecord ⟨1⟩ ⟨1⟩) fun _ => 3).Refused Float afterRegistration :=
  ⟨(one_current_per_copy Float).1 afterRegistration
      (ownReached_after registeredOnce {} (by decide +kernel) .start),
    (one_current_per_copy Float).2.1 afterRegistration (copyRecord ⟨1⟩ ⟨1⟩) (fun _ => 3)
      (by decide +kernel)⟩

end CacheDirectory
