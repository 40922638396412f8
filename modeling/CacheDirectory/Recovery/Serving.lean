/-
  File:      CacheDirectory/Recovery/Serving.lean
  Subject:   WHICH RECORDS QUERIES CAN SERVE, AND WHETHER THE EVIDENCE OF THESE IS KNOWN.

  The hard filters refuse bad values one by one; UNKNOWN is none of them. Whether a query can
  return a copy on unknown evidence is decided where records become servable: in registrations,
  updates, losses and recoveries.

  * `Servable`, `servable_iff` -- the records the least demanding query returns;
  * `Vouches`, `vouches_iff` -- a property holds of all servable records behind a call exactly
    when the call makes no record servable without it;
  * `selected_of_query` -- a query finds something exactly when a record is eligible, and then
    selects one;
  * `unknown_never_found_iff` -- along runs, for evidence that is known.
-/
import CacheDirectory.Recovery.Eligibility
import CacheDirectory.Recovery.Epochs

namespace CacheDirectory

open Library Directory

/-! ## 1. The least demanding query -/

/-- Some query returns the record: the one that asks for nothing does. -/
def Servable (r : DirectoryRecord) : Prop := Eligible {} r

instance (r : DirectoryRecord) : Decidable (Servable r) :=
  inferInstanceAs (Decidable (Eligible _ _))

/-- The evidence the filters refuse whatever is asked is not that of the record. -/
structure Passable (r : DirectoryRecord) : Prop where
  notCorrupt : r.integrity ≠ .corrupt
  notMissing : r.integrity ≠ .missing
  reachable : r.reachability ≠ .unreachable
  fresh : r.freshness ≠ .stale
  lease : ¬ (r.hasLease = true ∧ r.lease.state = .expired)

/-- The lifecycles the filters refuse. -/
def Barred (s : LifecycleState) : Prop := s = .invalidated ∨ s = .tombstoned ∨ s = .expired

/-- The record is servable once its boot is lost, or once it is recovered. -/
structure Revivable (r : DirectoryRecord) : Prop where
  processLocal : isProcessLocal r.domain = true
  current : r.current = true
  notCorrupt : r.integrity ≠ .corrupt
  notMissing : r.integrity ≠ .missing
  lease : ¬ (r.hasLease = true ∧ r.lease.state = .expired)

section Record

variable {r : DirectoryRecord} {q : DirectoryQuery}

theorem considered_least : considered {} r = r.current := by
  unfold considered identifyMatches
  cases r.current with
  | false => simp
  | true => simp

theorem untouched_least : Untouched {} r ↔ r.current = true ∧ r.integrity ≠ .corrupt ∧
    r.integrity ≠ .missing ∧ ¬ (r.hasLease = true ∧ r.lease.state = .expired) := by
  constructor
  · intro h
    exact ⟨considered_least.symm.trans h.considered, h.notCorrupt, h.notMissing, h.lease⟩
  · intro h
    obtain ⟨hcur, hcorrupt, hmissing, hlease⟩ := h
    exact ⟨considered_least.trans hcur, hcorrupt, hmissing, nofun, nofun, .inl rfl, hlease⟩

theorem standing_least : Standing {} r ↔
    ¬ Barred r.lifecycle ∧ r.reachability ≠ .unreachable ∧ r.freshness ≠ .stale := by
  unfold Barred
  constructor
  · intro h
    refine ⟨?_, h.reachable, h.fresh⟩
    intro h
    rcases h with hinv | htomb | hexp
    · exact h.notInvalidated hinv
    · exact h.notTombstoned htomb
    · exact h.notExpired hexp
  · intro h
    obtain ⟨hbarred, hreach, hfresh⟩ := h
    exact ⟨fun h => hbarred (.inl h), fun h => hbarred (.inr (.inl h)),
      fun h => hbarred (.inr (.inr h)), hreach, hfresh, nofun, nofun⟩

/-- **A record is servable exactly when it is current, no lifecycle bars it and its evidence
    passes.** -/
theorem servable_iff :
    Servable r ↔ r.current = true ∧ ¬ Barred r.lifecycle ∧ Passable r := by
  unfold Servable
  rw [eligible_iff, untouched_least, standing_least]
  constructor
  · rintro ⟨⟨hcur, hcorrupt, hmissing, hlease⟩, hbarred, hreach, hfresh⟩
    exact ⟨hcur, hbarred, hcorrupt, hmissing, hreach, hfresh, hlease⟩
  · intro h
    obtain ⟨hcur, hbarred, hp⟩ := h
    exact ⟨⟨hcur, hp.notCorrupt, hp.notMissing, hp.lease⟩, hbarred, hp.reachable, hp.fresh⟩

/-- Whatever a query returns is servable. -/
theorem Eligible.servable (h : Eligible q r) : Servable r := by
  obtain ⟨hu, hs⟩ := eligible_iff.mp h
  have hcur : r.current = true := by
    have hcons := hu.considered
    unfold considered at hcons
    exact (Bool.and_eq_true_iff.mp hcons).2
  refine servable_iff.mpr ⟨hcur, ?_, hu.notCorrupt, hu.notMissing, hs.reachable, hs.fresh,
    hu.lease⟩
  intro h
  rcases h with hinv | htomb | hexp
  · exact hs.notInvalidated hinv
  · exact hs.notTombstoned htomb
  · exact hs.notExpired hexp

theorem undemanding_least : ({} : DirectoryQuery).Undemanding := ⟨nofun, nofun⟩

theorem revivable_iff :
    isProcessLocal r.domain = true ∧ Untouched {} r ∧ ({} : DirectoryQuery).Undemanding ↔
      Revivable r := by
  rw [and_iff_left undemanding_least, untouched_least]
  constructor
  · intro h
    obtain ⟨hlocal, hcur, hcorrupt, hmissing, hlease⟩ := h
    exact ⟨hlocal, hcur, hcorrupt, hmissing, hlease⟩
  · intro h
    exact ⟨h.processLocal, h.current, h.notCorrupt, h.notMissing, h.lease⟩

theorem servable_loseRecord : Servable (loseRecord r) ↔ Revivable r :=
  eligible_loseRecord.trans revivable_iff

theorem servable_recoverRecord : Servable (recoverRecord r) ↔ Revivable r :=
  eligible_recoverRecord.trans revivable_iff

/-- A registration that is committed is servable exactly when its evidence passes. -/
theorem servable_stamped {d : Directory} {clk : Nat → TimestampNs} :
    Servable (d.stamped r clk) ↔ Passable r := by
  have hbarred : ¬ Barred (d.stamped r clk).lifecycle := by
    rw [lifecycle_stamped]
    unfold Barred
    split
    · simp
    · split
      · simp
      · simp
  have hcur : (d.stamped r clk).current = true := rfl
  rw [servable_iff, and_iff_right hbarred, and_iff_right hcur]
  exact ⟨fun h => ⟨h.1, h.2, h.3, h.4, h.5⟩, fun h => ⟨h.1, h.2, h.3, h.4, h.5⟩⟩

theorem servable_restamped {s : LifecycleState} {env : AuthorityEnvelope} {now : TimestampNs} :
    Servable (restamped s env now r) ↔ r.current = true ∧ ¬ Barred s ∧ Passable r := by
  rw [servable_iff]
  exact and_congr_right fun _ => and_congr_right fun _ =>
    ⟨fun h => ⟨h.1, h.2, h.3, h.4, h.5⟩, fun h => ⟨h.1, h.2, h.3, h.4, h.5⟩⟩

/-- No lifecycle the filters refuse is derived for a record labelled SUPERSEDED. -/
theorem derived_not_barred (hlabel : r.lifecycle = .superseded) (hp : Passable r) :
    ¬ Barred (deriveLifecycle r) := by
  have hlease : (r.hasLease && r.lease.state == .expired) = false := by
    simpa using hp.lease
  unfold Barred deriveLifecycle
  simp only [hlabel, hlease]
  grind

end Record

/-! ## 2. One call -/

/-- The property holds of every record on file that is servable. -/
def OnlyServed (P : DirectoryRecord → Prop) (d : Directory) : Prop :=
  ∀ r ∈ d.records, Servable r → P r

/-- The property does not look at what commits and updates stamp on a record. -/
structure Plain (P : DirectoryRecord → Prop) : Prop where
  stamped : ∀ d record clk, P (Directory.stamped d record clk) ↔ P record
  restamped : ∀ s env now r, P (CacheDirectory.restamped s env now r) ↔ P r

/-- What the call makes servable has the property: an admitted registration whose evidence passes,
    an admitted relabelling of a current record whose evidence passes, revivable records of a lost
    boot or of an accepted snapshot, and an admitted update that leaves a current record whose
    evidence passes under a lifecycle that does not bar it. -/
def Operation.Vouches (P : DirectoryRecord → Prop) (op : Operation) (d : Directory) : Prop :=
  match op with
  | .registerEntry record _ => d.checkRegistration record = none → Passable record → P record
  | .updateLifecycle id s env _ =>
      ∀ i, Admitted id env d i → canLifecycle (d.records.get i).lifecycle s = true → ¬ Barred s →
        (d.records.get i).current = true → Passable (d.records.get i) → P (d.records.get i)
  | .onWorkerLoss b _ =>
      d.workerLive b = true → ∀ r ∈ d.records, r.workerBoot = b → Revivable r → P (loseRecord r)
  | .recoverFromBuffer buf =>
      ∀ s, acceptedSnapshot buf = some s → ∀ r ∈ s.records, Revivable r → P (recoverRecord r)
  | op =>
      ∀ id env write, op.evidence = some (id, env, write) → ∀ i, Admitted id env d i →
        (d.records.get i).current = true → (d.records.get i).lifecycle ≠ .tombstoned →
        ¬ Barred (deriveLifecycle (write (d.records.get i))) → Passable (write (d.records.get i)) →
        P (write (d.records.get i))

section Step

variable {P : DirectoryRecord → Prop} {d : Directory} {op : Operation}

theorem Operation.Vouches.written (h : op.Vouches P d) {id : DirectoryRecordId}
    {env : AuthorityEnvelope} {write : DirectoryRecord → DirectoryRecord}
    (hev : op.evidence = some (id, env, write)) {i : Fin d.records.length}
    (hi : Admitted id env d i) (hcur : (d.records.get i).current = true)
    (hlabel : (d.records.get i).lifecycle ≠ .tombstoned)
    (hbarred : ¬ Barred (deriveLifecycle (write (d.records.get i))))
    (hp : Passable (write (d.records.get i))) : P (write (d.records.get i)) := by
  cases op with
  | updateHealth id h env now => exact h _ _ _ hev i hi hcur hlabel hbarred hp
  | updateFreshness id f env now => exact h _ _ _ hev i hi hcur hlabel hbarred hp
  | updateReachability id reach env now => exact h _ _ _ hev i hi hcur hlabel hbarred hp
  | updateIntegrity id integ env now => exact h _ _ _ hev i hi hcur hlabel hbarred hp
  | _ => cases hev

/-- One edit of a call that vouches for what it makes servable. -/
theorem served_edited (hP : Plain P) {r r' : DirectoryRecord} (h : Edited d op r r')
    (hmem : r ∈ d.records) (hr : Servable r → P r) (hgood : op.Vouches P d)
    (hserved : Servable r') : P r' := by
  cases h with
  | untouched op r => exact hr hserved
  | lost live boot => exact hgood live r hmem boot (servable_loseRecord.mp hserved)
  | displaced admitted hit => cases (servable_iff.mp hserved).1
  | @late _ id env write i hev hi hfrozen =>
      obtain ⟨hcur, hbarred, hp⟩ := servable_iff.mp hserved
      obtain ⟨hlabel, hsame⟩ := write_leaves hev (d.records.get i)
      rw [hlabel] at hbarred
      -- what is frozen and not barred is labelled SUPERSEDED
      have hsup := hfrozen.resolve_left fun h => hbarred (.inr (.inl h))
      exact hgood.written hev hi (hsame.symm.trans hcur) (fun h => hbarred (.inr (.inl h)))
        (derived_not_barred (hlabel.trans hsup) hp) hp
  | @evidence _ id env write i now hev hi hfree =>
      obtain ⟨hcur, hbarred, hp⟩ := servable_restamped.mp hserved
      have hsame := (write_leaves hev (d.records.get i)).2
      exact (hP.restamped _ _ _ _).mpr (hgood.written hev hi (hsame.symm.trans hcur)
        (fun h => hfree (.inl h)) hbarred hp)
  | relabelled hi can =>
      obtain ⟨hcur, hbarred, hp⟩ := servable_restamped.mp hserved
      exact (hP.restamped _ _ _ _).mpr (hgood _ hi can hbarred hcur hp)
  | invalidated now reach hhit hcur _ => cases (servable_iff.mp hserved).1
  | buried _ _ _ => cases (servable_iff.mp hserved).1

/-- An admitted update makes nothing servable without the property only if it vouches. -/
theorem vouches_written (hP : Plain P) {F : Type} [ScoreArith F]
    (h : OnlyServed P (op.step F d)) {id : DirectoryRecordId} {env : AuthorityEnvelope}
    {write : DirectoryRecord → DirectoryRecord} (hev : op.evidence = some (id, env, write))
    {i : Fin d.records.length} (hi : Admitted id env d i)
    (hcur : (d.records.get i).current = true)
    (hlabel : (d.records.get i).lifecycle ≠ .tombstoned)
    (hbarred : ¬ Barred (deriveLifecycle (write (d.records.get i))))
    (hp : Passable (write (d.records.get i))) : P (write (d.records.get i)) := by
  obtain ⟨hlife, hsame⟩ := write_leaves hev (d.records.get i)
  rcases written_mem F hev hi with ⟨hfrozen, hmem⟩ | ⟨now, hmem⟩
  · refine h _ hmem (servable_iff.mpr ⟨hsame.trans hcur, ?_, hp⟩)
    rw [hlife, hfrozen.resolve_left hlabel]
    rintro (h | h | h) <;> cases h
  · exact (hP.restamped _ _ _ _).mp
      (h _ hmem (servable_restamped.mpr ⟨hsame.trans hcur, hbarred, hp⟩))

/-- **A call leaves the property with all that is servable exactly when it vouches for what it
    makes servable.** -/
theorem vouches_iff (hP : Plain P) {F : Type} [ScoreArith F] (op : Operation) (d : Directory)
    (hd : OnlyServed P d) : op.Vouches P d ↔ OnlyServed P (op.step F d) := by
  have hkeeps (hop : op.isRecovery = false) (hgood : op.Vouches P d)
      (happ : op.appended d = []) : OnlyServed P (op.step F d) :=
    forall_records_step F (P := fun r => Servable r → P r) hop
      (fun r hr r' hedited => served_edited hP hedited hr (hd r hr) hgood)
      fun r hr => (List.not_mem_nil (happ ▸ hr)).elim
  cases op with
  | registerEntry record clk =>
      refine Iff.trans (forall_congr' fun _ => ?_)
        (registration_iff F (P := fun r => Servable r → P r) hd fun r _ hserved => ?_)
      · rw [servable_stamped, hP.stamped]
      · cases (servable_iff.mp hserved).1
  | updateLifecycle id s env now =>
      refine ⟨fun hgood => hkeeps rfl hgood rfl, ?_⟩
      intro h i hi hcan hbarred hcur hp
      refine (hP.restamped s env now _).mp (h _ ?_ (servable_restamped.mpr ⟨hcur, hbarred, hp⟩))
      show _ ∈ (d.updateLifecycle id s env now).2.records
      rw [updateLifecycle_done hi hcan]
      exact List.mem_set i.isLt _
  | onWorkerLoss b reason =>
      refine ⟨fun hgood => hkeeps rfl hgood rfl, ?_⟩
      intro h hlive r hr hboot hrev
      obtain ⟨i, hi⟩ := List.mem_iff_getElem?.mp hr
      exact h _ (List.mem_of_getElem? (lost_at F reason hi hlive hboot))
        (servable_loseRecord.mpr hrev)
  | recoverFromBuffer buf =>
      refine recovery_iff (P := OnlyServed P) hd fun s _ => Iff.symm ?_
      refine List.forall_mem_map.trans ?_
      simp only [servable_recoverRecord]
  | _ =>
      exact ⟨fun hgood => hkeeps rfl hgood rfl,
        fun h _ _ _ hev _ hi => vouches_written hP h hev hi⟩

end Step

/-! ## 3. What a query selects -/

/-- FOUND_LOCAL, FOUND_REMOTE or FOUND_MULTIPLE. -/
def QueryOutcome.isFound : QueryOutcome → Bool
  | .foundLocal => true
  | .foundRemote => true
  | .foundMultiple => true
  | _ => false

theorem emptyOutcome_not_found (rejections : List Rejection) (n : Nat) :
    (emptyOutcome rejections n).isFound = false := by
  unfold emptyOutcome
  dsimp only
  repeat' split
  all_goals rfl

section Selected

variable {F : Type} [ScoreArith F] {d : Directory} {q : DirectoryQuery}

/-- The two ways the loop of a query ends. -/
theorem queryImpl_ends (d : Directory) (q : DirectoryQuery) (idx : List Nat) :
    ((d.queryImpl (F := F) q idx).candidates = [] ∧
        (d.queryImpl (F := F) q idx).outcome.isFound = false) ∨
      ∃ c cs, (d.queryImpl (F := F) q idx).candidates = c :: cs ∧ c.selected = true ∧
        (d.queryImpl (F := F) q idx).selectedIndex = 0 ∧
        (d.queryImpl (F := F) q idx).outcome.isFound = true := by
  unfold queryImpl
  dsimp only
  split
  · exact .inl ⟨rfl, emptyOutcome_not_found _ _⟩
  · refine .inr ⟨_, _, rfl, rfl, rfl, ?_⟩
    split
    · rfl
    · split
      · rfl
      · rfl

/-- **A query finds something exactly when a record is eligible**, and then selects one that is. -/
theorem selected_of_query (h : d.IndexFits) {order : Enumeration Nat} {res : QueryResult F}
    (hres : (d.query (F := F) order q).1 = .ok res) :
    (res.outcome.isFound = true ↔ ∃ r ∈ d.records, Eligible q r) ∧
      (res.outcome.isFound = true → ∃ c ∈ res.candidates,
        res.candidates[res.selectedIndex.toNat]? = some c ∧ c.selected = true ∧
          c.record ∈ d.records ∧ Eligible q c.record) := by
  have hmem := mem_candidates h hres
  rw [query_answer h] at hres
  cases hres
  rcases queryImpl_ends (F := F) d q (List.range d.records.length) with
    ⟨hnone, hout⟩ | ⟨c, cs, hcands, hsel, hindex, hout⟩
  · have hno : ¬ ∃ r ∈ d.records, Eligible q r := by
      intro h
      obtain ⟨r, hr, heligible⟩ := h
      obtain ⟨c, hc, _⟩ := (hmem r).mpr ⟨hr, heligible⟩
      rw [show (d.queryScan (F := F) q).candidates = [] from hnone] at hc
      cases hc
    have hnot : (d.queryScan (F := F) q).outcome.isFound = false := hout
    exact ⟨iff_of_false (by simp [hnot]) hno, fun h => by simp [hnot] at h⟩
  · have hlist : (d.queryScan (F := F) q).candidates = c :: cs := hcands
    have hc : c ∈ (d.queryScan (F := F) q).candidates := by
      rw [hlist]
      exact List.mem_cons_self
    have hrecord := (hmem c.record).mp ⟨c, hc, rfl⟩
    refine ⟨iff_of_true hout ⟨c.record, hrecord⟩, fun _ => ⟨c, hc, ?_, hsel, hrecord⟩⟩
    rw [hlist, show (d.queryScan (F := F) q).selectedIndex = 0 from hindex]
    rfl

/-- The query finds something and selects a candidate with the property. -/
def Selects (F : Type) [ScoreArith F] (q : DirectoryQuery) (d : Directory)
    (P : DirectoryRecord → Prop) : Prop :=
  ∃ (res : QueryResult F) (c : Candidate F), (d.query (.stored _) q).1 = .ok res ∧
    res.outcome.isFound = true ∧ res.candidates[res.selectedIndex.toNat]? = some c ∧ P c.record

theorem selects_of_all (F : Type) [ScoreArith F] (h : d.IndexFits) {P : DirectoryRecord → Prop}
    (heligible : ∃ r ∈ d.records, Eligible q r) (hall : ∀ r ∈ d.records, P r) :
    Selects F q d P := by
  have hres := query_answer (F := F) h (.stored _) q
  obtain ⟨hfound, hselects⟩ := selected_of_query h hres
  obtain ⟨c, _, hindex, _, hmem, _⟩ := hselects (hfound.mpr heligible)
  exact ⟨_, c, hres, hfound.mpr heligible, hindex, hall c.record hmem⟩

/-- All that queries return has the property exactly when all that is servable has. -/
theorem onlyServed_iff (F : Type) [ScoreArith F] (h : d.IndexFits) {P : DirectoryRecord → Prop} :
    OnlyServed P d ↔ ∀ (order : Enumeration Nat) (q : DirectoryQuery) (res : QueryResult F),
      (d.query order q).1 = .ok res → ∀ c ∈ res.candidates, P c.record := by
  constructor
  · intro hserved order q res hres c hc
    obtain ⟨hmem, heligible⟩ := (mem_candidates h hres c.record).mp ⟨c, hc, rfl⟩
    exact hserved c.record hmem heligible.servable
  · intro hall r hr hserved
    have hres := query_answer (F := F) h (.stored _) {}
    obtain ⟨c, hc, rfl⟩ := (mem_candidates h hres r).mpr ⟨hr, hserved⟩
    exact hall _ _ _ hres c hc

end Selected

/-! ## 4. Known evidence -/

/-- Freshness, reachability and integrity are none of them UNKNOWN. -/
structure Known (r : DirectoryRecord) : Prop where
  freshness : r.freshness ≠ .unknown
  reachability : r.reachability ≠ .unknown
  integrity : r.integrity ≠ .unknown

theorem plain_known : Plain Known :=
  ⟨fun _ _ _ => ⟨fun h => ⟨h.1, h.2, h.3⟩, fun h => ⟨h.1, h.2, h.3⟩⟩,
    fun _ _ _ _ => ⟨fun h => ⟨h.1, h.2, h.3⟩, fun h => ⟨h.1, h.2, h.3⟩⟩⟩

/-- **Unknown evidence is no hit.** All candidates of all queries have known evidence in every
    state reached exactly along the runs whose calls make servable only what has; and along these
    a query that finds something selects a candidate with known evidence. -/
theorem unknown_never_found_iff (F : Type) [ScoreArith F] (ops : List Operation) :
    (Follows (Operation.step F) (Operation.Vouches Known) {} ops ↔
        ∀ d, Reached F ops d → ∀ (order : Enumeration Nat) (q : DirectoryQuery)
          (res : QueryResult F), (d.query order q).1 = .ok res →
            ∀ c ∈ res.candidates, Known c.record) ∧
      (Follows (Operation.step F) (Operation.Vouches Known) {} ops →
        ∀ d, Reached F ops d → ∀ (order : Enumeration Nat) (q : DirectoryQuery)
          (res : QueryResult F), (d.query order q).1 = .ok res → res.outcome.isFound = true →
            ∃ c, res.candidates[res.selectedIndex.toNat]? = some c ∧ c.selected = true ∧
              Known c.record) := by
  have hall : Follows (Operation.step F) (Operation.Vouches Known) {} ops ↔
      ∀ d, Reached F ops d → ∀ (order : Enumeration Nat) (q : DirectoryQuery)
        (res : QueryResult F), (d.query order q).1 = .ok res →
          ∀ c ∈ res.candidates, Known c.record := by
    rw [follows_iff_visited (vouches_iff plain_known) ops {}
      fun _ h => (List.not_mem_nil h).elim]
    exact forall₂_congr fun d hd => onlyServed_iff F (indexFits_reached hd)
  refine ⟨hall, fun hgood d hd order q res hres hfound => ?_⟩
  obtain ⟨c, hc, hindex, hsel, _⟩ := (selected_of_query (indexFits_reached hd) hres).2 hfound
  exact ⟨c, hindex, hsel, hall.mp hgood d hd order q res hres c hc⟩

/-- **The counterexample**: the one copy is registered on no evidence at all and found. -/
theorem unknown_is_found :
    Reached Float registeredOnce afterRegistration ∧
      Selects Float anyCopy afterRegistration fun r =>
        r.freshness = .unknown ∧ r.reachability = .unknown ∧ r.integrity = .unknown := by
  have hreached : Reached Float registeredOnce afterRegistration := after_mem_visited _ _ _
  exact ⟨hreached, selects_of_all Float (indexFits_reached hreached) (by decide +kernel)
    (by decide +kernel)⟩

end CacheDirectory
