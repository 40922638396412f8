/-
  File:      CacheDirectory/Invariants/IndexUpkeep.lean
  Subject:   WHETHER THE CACHED INDEXES ARE THOSE OF THE RECORDS.

  All eighteen multimaps stand behind one dirty flag. Every edit of a record sets it but one: an
  evidence update that fails late has written its field already and returns before the flag.

  * `Upkept`, `upkept_step` -- every other call leaves the index dirty, or built, or leaves index
    and records alone;
  * `written_of_index_eq` -- the multimap of the field tells whether the late write changed it;
  * `spoils_iff` -- one call keeps a clean index true exactly when it is no late write;
  * `clean_index_iff` -- along runs.
-/
import CacheDirectory.Invariants.Indexes
import CacheDirectory.Invariants.Edits

namespace CacheDirectory

open Library Directory

/-! ## 1. Calls that declare their edits -/

/-- A cached index that is not declared dirty is the one of the records. -/
def Directory.IndexClean (d : Directory) : Prop :=
  d.indexesDirty = false → d.indexes = buildIndexes d.records

/-- The three things a call does to index and records when it declares its edits. -/
inductive Upkept (d d' : Directory) : Prop where
  | dirty (flag : d'.indexesDirty = true)
  | same (records : d'.records = d.records) (indexes : d'.indexes = d.indexes)
      (flag : d'.indexesDirty = d.indexesDirty)
  | built (indexes : d'.indexes = buildIndexes d'.records)

namespace Upkept

variable {d d' : Directory}

theorem refl (d : Directory) : Upkept d d := .same rfl rfl rfl

theorem clean (h : Upkept d d') (hd : d.IndexClean) : d'.IndexClean := by
  intro hflag
  cases h with
  | dirty hdirty =>
      rw [hdirty] at hflag
      cases hflag
  | same hrecords hindexes hsame =>
      rw [hindexes, hrecords]
      exact hd (hsame.symm.trans hflag)
  | built hindexes => exact hindexes

theorem guarded {ε α : Type} {checks : List (Bool × ε)} {act : α × Directory}
    (h : Upkept d act.2) : Upkept d (Library.guarded checks d act).2 :=
  guarded_keeps (P := Upkept d) (refl d) fun _ => h

theorem ensureIndexes (d : Directory) : Upkept d d.ensureIndexes := by
  unfold Directory.ensureIndexes
  split
  · exact refl d
  · exact .built rfl

/-- A step of a lease touches neither. -/
theorem leaseAt {id : LeaseId} {f : LeaseDescriptor → LeaseDescriptor}
    {hf : ∀ l, (f l).leaseId = l.leaseId} : Upkept d (CacheDirectory.leaseAt d id f hf) :=
  .same rfl rfl rfl

end Upkept

/-- **Every call that writes no evidence declares its edits.** -/
theorem upkept_step (F : Type) [ScoreArith F] {op : Operation} (hop : op.evidence = none)
    (d : Directory) : Upkept d (op.step F d) := by
  cases op with
  | updateHealth id h env now => cases hop
  | updateFreshness id f env now => cases hop
  | updateReachability id reach env now => cases hop
  | updateIntegrity id integ env now => cases hop
  | registerWorkerSession session => exact Upkept.guarded (.same rfl rfl rfl)
  | onWorkerLoss boot reason =>
      show Upkept d (d.onWorkerLoss boot reason).2
      unfold onWorkerLoss
      split
      · exact .refl d
      · exact .dirty rfl
  | registerEntry record clk =>
      exact registerEntry_keeps (P := Upkept d) (.refl d) fun _ _ hc => .dirty hc.dirty
  | updateLifecycle id s env now =>
      exact updateLifecycle_keeps (P := Upkept d) (.refl d) fun _ _ => .dirty rfl
  | updateCacheHealth id h reach env =>
      exact updateCache_keeps (P := Upkept d) (.refl d) (.dirty rfl)
  | updateCacheCapacity id capacity free env =>
      exact updateCache_keeps (P := Upkept d) (.refl d) (.dirty rfl)
  | renewLease id env now => exact renewLease_keeps (P := Upkept d) (.refl d) .leaseAt
  | expireLease id env reason => exact expireLease_keeps (P := Upkept d) (.refl d) .leaseAt
  | revokeLease id env reason => exact revokeLease_keeps (P := Upkept d) (.refl d) .leaseAt
  | query order q =>
      show Upkept d (d.query (F := F) order q).2
      cases Upkept.ensureIndexes d with
      | dirty hflag => exact .dirty hflag
      | same hrecords hindexes hflag => exact .same hrecords hindexes hflag
      | built hindexes => exact .built hindexes
  | setRankingPolicy p => exact .same rfl rfl rfl
  | validateIndexes =>
      have h := Upkept.ensureIndexes d
      exact guarded_keeps (P := Upkept d) h fun _ => h
  | indexes => exact .ensureIndexes d
  | nextObjectId => exact .same rfl rfl rfl
  | recoverFromBuffer buf =>
      exact recover_keeps F (P := Upkept d) (.refl d) fun _ _ _ => .dirty rfl
  | _ => exact Upkept.guarded (.dirty rfl)

/-! ## 2. The late write -/

/-- A multimap gives the keys of the records back. -/
theorem map_eq_of_indexBy {κ : Type} {key : DirectoryRecord → κ} {l l' : List DirectoryRecord}
    (h : indexBy key l' = indexBy key l) : l'.map key = l.map key := by
  have hkeys (l : List DirectoryRecord) : (indexBy key l).map Prod.fst = l.map key := by
    have hzip : (indexBy key l).map Prod.fst = (l.zipIdx.map Prod.fst).map key := by
      unfold indexBy
      rw [List.map_map, List.map_map]
      rfl
    rw [hzip, List.zipIdx_map_fst]
  rw [← hkeys l, ← hkeys l', h]

/-- Assigning one record leaves the multimap of a field alone only if it leaves the field alone. -/
theorem field_eq_of_indexBy_set {α : Type} [ByteEnum α] {f : DirectoryRecord → α}
    {l : List DirectoryRecord} {i : Fin l.length} {x : DirectoryRecord}
    (h : indexBy (fun r => toByte (f r)) (l.set i x) = indexBy (fun r => toByte (f r)) l) :
    f x = f (l.get i) := by
  have hkeys := map_eq_of_indexBy h
  have hat : ((l.set i x).map fun r => toByte (f r))[i.val]? =
      (l.map fun r => toByte (f r))[i.val]? := by rw [hkeys]
  have hbyte : toByte (f x) = toByte (f (l.get i)) := by simpa using hat
  exact toByte_inj hbyte

/-- **The index of the field tells**: where the write leaves the multimaps alone it leaves the
    record alone. -/
theorem written_of_index_eq {op : Operation} {id : DirectoryRecordId} {env : AuthorityEnvelope}
    {write : DirectoryRecord → DirectoryRecord} (hev : op.evidence = some (id, env, write))
    {l : List DirectoryRecord} {i : Fin l.length}
    (h : buildIndexes (l.set i (write (l.get i))) = buildIndexes l) :
    write (l.get i) = l.get i := by
  cases op with
  | updateHealth id h' env now =>
      cases hev
      have hfield := field_eq_of_indexBy_set (f := (·.health)) (congrArg (·.byHealth) h)
      exact congrArg (fun x => { l.get i with health := x }) hfield
  | updateFreshness id f env now =>
      cases hev
      have hfield := field_eq_of_indexBy_set (f := (·.freshness)) (congrArg (·.byFreshness) h)
      exact congrArg (fun x => { l.get i with freshness := x }) hfield
  | updateReachability id reach env now =>
      cases hev
      have hfield := field_eq_of_indexBy_set (f := (·.reachability)) (congrArg (·.byReachability) h)
      exact congrArg (fun x => { l.get i with reachability := x }) hfield
  | updateIntegrity id integ env now =>
      cases hev
      have hfield := field_eq_of_indexBy_set (f := (·.integrity)) (congrArg (·.byIntegrity) h)
      exact congrArg (fun x => { l.get i with integrity := x }) hfield
  | _ => cases hev

/-- The call is a late write under a clean index. -/
def Operation.SpoilsIndex (op : Operation) (d : Directory) : Prop :=
  d.indexesDirty = false ∧ op.LateWrite d

/-- **One call keeps a clean index true exactly when it does not spoil it.** -/
theorem spoils_iff (F : Type) [ScoreArith F] (op : Operation) (d : Directory)
    (hd : d.IndexClean) : ¬ op.SpoilsIndex d ↔ (op.step F d).IndexClean := by
  cases hev : op.evidence with
  | none =>
      refine iff_of_true ?_ ((upkept_step F hev d).clean hd)
      intro h
      obtain ⟨_, id, env, write, i, hsome, _⟩ := h
      rw [hev] at hsome
      cases hsome
  | some e =>
      obtain ⟨id, env, write⟩ := e
      obtain ⟨now, hstep⟩ := step_of_evidence F hev d
      rw [hstep]
      rcases @updateEvidence_cases id env now d write with
        ⟨f, hend, hno⟩ | ⟨i, hi, hcan, hend⟩ | ⟨i, r, hi, rfl, hcan, hend⟩
      · rw [hend]
        refine iff_of_true ?_ hd
        intro h
        obtain ⟨_, _, _, _, i, hsome, hlate, _⟩ := h
        cases hev.symm.trans hsome
        exact hno i ⟨hlate.found, hlate.authorised⟩
      · rw [hend]
        constructor
        · intro hspares hflag
          have hsame : write (d.records.get i) = d.records.get i := by
            by_contra hne
            have hfrozen := (canLifecycle_derived _ _).mp hcan
            exact hspares ⟨hflag, id, env, write, i, hev,
              ⟨hi.found, hi.authorised, hfrozen⟩, hne⟩
          show d.indexes = buildIndexes (d.records.set i (write (d.records.get i)))
          rw [set_eq_self_iff.mpr hsame]
          exact hd hflag
        · intro hclean h
          obtain ⟨hflag, _, _, _, j, hsome, hlate, hne⟩ := h
          cases hev.symm.trans hsome
          obtain rfl := hi.unique ⟨hlate.found, hlate.authorised⟩
          have hbehind : d.indexes = buildIndexes (d.records.set i (write (d.records.get i))) :=
            hclean hflag
          exact hne (written_of_index_eq hev (hbehind.symm.trans (hd hflag)))
      · rw [hend]
        refine iff_of_true ?_ fun hflag => by cases hflag
        intro h
        obtain ⟨_, _, _, _, j, hsome, hlate, _⟩ := h
        cases hev.symm.trans hsome
        obtain rfl := hi.unique ⟨hlate.found, hlate.authorised⟩
        have hno : canLifecycle (d.records.get i).lifecycle
            (deriveLifecycle (write (d.records.get i))) = false :=
          (canLifecycle_derived _ _).mpr hlate.frozen
        exact absurd (hno.symm.trans hcan) Bool.false_ne_true

/-! ## 3. Runs -/

/-- **A cached index that is not declared dirty is the one of the records**, in every state
    reached, exactly along the runs that make no late write under a clean index. -/
theorem clean_index_iff (F : Type) [ScoreArith F] (ops : List Operation) :
    Follows (Operation.step F) (fun op d => ¬ op.SpoilsIndex d) {} ops ↔
      ∀ d, Reached F ops d → d.indexesDirty = false → d.indexes = buildIndexes d.records :=
  follows_iff_visited (spoils_iff F) ops {} fun h => by cases h

/-- A buried copy, its indexes read, and a report of its health. -/
def spoiling : List Operation := burial ++ [.indexes, healthUpdate .healthy]

def spoiled : Directory := after (Operation.step Float) {} spoiling

/-- **The counterexample**: the report is refused, the record carries it, and the index by health,
    which is not declared dirty, does not. -/
theorem late_write_spoils_index :
    Reached Float spoiling spoiled ∧ spoiled.indexesDirty = false ∧
      spoiled.indexes.byHealth ≠ (buildIndexes spoiled.records).byHealth := by
  refine ⟨after_mem_visited _ _ _, ?_⟩
  decide +kernel

end CacheDirectory
