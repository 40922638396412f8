/-
  File:      CacheDirectory/Queries/Published.lean
  Subject:   HOW LONG A PUBLISHED COPY IS FOUND.

  A registration that is admitted puts a current record on file. From then on the record is current
  until a call that is accepted retires it; the loss of its worker and every report change what is
  said of it, and never retire it.

  * `takes`, `Retires` -- the records a call means, and the records an accepted call retires;
  * `retired_at`, `spared_at` -- one call;
  * `current_iff_spared` -- along a run;
  * `published_found_iff` -- behind every run, every query the record is identified by returns it or
    names the filter it fails, exactly as long as no call has retired it.
-/
import CacheDirectory.Invariants.History
import CacheDirectory.Queries.Specification

namespace CacheDirectory

open Library Directory

/-! ## 1. One call -/

/-- The records the call means to retire. -/
def Operation.takes (op : Operation) (d : Directory) (r : DirectoryRecord) : Bool :=
  match op with
  | .registerEntry record _ => displaces d record r
  | .tombstone t =>
      t.target.kind == .state && r.stateId == t.target.state &&
        r.stateGeneration.value ≤ t.target.generationFloor
  | op => op.selects d r

/-- The call is accepted and the record is among them. -/
def Operation.Retires (F : Type) [ScoreArith F] (op : Operation) (d : Directory)
    (r : DirectoryRecord) : Prop :=
  op.Accepted F d ∧ op.takes d r = true

instance (F : Type) [ScoreArith F] (op : Operation) (d : Directory) (r : DirectoryRecord) :
    Decidable (op.Retires F d r) :=
  inferInstanceAs (Decidable (_ ∧ _))

section Step

variable {F : Type} [ScoreArith F] {d : Directory} {i : Nat} {r : DirectoryRecord}

/-- An invalidation is accepted when its epoch is the directory's. -/
theorem accepted_of_selects {op : Operation} (h : op.selects d r = true) : op.Accepted F d := by
  have hpass {env : AuthorityEnvelope} {affected : UInt32} {message : Bytes}
      {act : Directory → Directory} {b : Bool} (hb : (env.epoch == d.epoch && b) = true) :
      (Operation.report (d.invalidateWith env affected message act)).1 = none := by
    have hepoch : env.epoch = d.epoch := beq_iff_eq.mp (Bool.and_eq_true_iff.mp hb).1
    rw [report_eq_none]
    refine guarded_ok_iff.mpr (firstFailure_eq_none.mpr ?_)
    simpa using hepoch
  cases op with
  | invalidateState s g env reason clk => exact hpass h
  | invalidateLocation loc env reason clk => exact hpass h
  | invalidateReplica rep env reason clk => exact hpass h
  | invalidateCache c env reason clk => exact hpass h
  | invalidateWorkerBoot b env reason clk => exact hpass h
  | _ => cases h

/-- **A current record an accepted call takes is current no more.** -/
theorem retired_at {op : Operation} (hr : d.records[i]? = some r) (hcur : r.current = true)
    (h : op.Retires F d r) :
    ∃ r', (op.step F d).records[i]? = some r' ∧ r'.current = false := by
  obtain ⟨haccepted, htakes⟩ := h
  cases op with
  | registerEntry record clk =>
      exact ⟨_, displaced_at F clk hr (accepted_registerEntry.mp haccepted) htakes, rfl⟩
  | tombstone t =>
      have hdone := (accepted_report_guarded haccepted).2
      have hburied : buryRecord t.target r =
          { r with lifecycle := .tombstoned, current := false } := if_pos htakes
      refine ⟨buryRecord t.target r, ?_, by rw [hburied]⟩
      show (d.tombstone t).2.records[i]? = _
      unfold tombstone
      rw [hdone]
      show (d.records.map (buryRecord t.target))[i]? = _
      rw [List.getElem?_map, hr]
      rfl
  | invalidateState s g env reason clk =>
      exact ⟨_, invalidateWith_at (d.selectState s g env) id rfl hr htakes hcur, rfl⟩
  | invalidateLocation loc env reason clk =>
      exact ⟨_, invalidateWith_at (fun r => r.location == loc)
        (fun r => { r with reachability := .unreachable }) rfl hr htakes hcur, rfl⟩
  | invalidateReplica rep env reason clk =>
      exact ⟨_, invalidateWith_at (fun r => r.replica == rep) id rfl hr htakes hcur, rfl⟩
  | invalidateCache c env reason clk =>
      exact ⟨_, invalidateWith_at (fun r => r.cache == c) id rfl hr htakes hcur, rfl⟩
  | invalidateWorkerBoot b env reason clk =>
      exact ⟨_, invalidateWith_at (fun r => r.workerBoot == b)
        (fun r => { r with reachability := .unreachable }) rfl hr htakes hcur, rfl⟩
  | _ => cases htakes

/-- **A current record no call retires stays current**, whatever else is done to it. -/
theorem spared_at {op : Operation} (hop : op.isRecovery = false) (hr : d.records[i]? = some r)
    (hcur : r.current = true) (h : ¬ op.Retires F d r) {r' : DirectoryRecord}
    (hr' : (op.step F d).records[i]? = some r') : r'.current = true := by
  cases edited_at F hop hr hr' with
  | untouched => exact hcur
  | lost live boot =>
      unfold loseRecord
      split
      · exact hcur
      · exact hcur
  | displaced admitted hit => exact absurd ⟨accepted_registerEntry.mpr admitted, hit⟩ h
  | late evidence admitted frozen => exact (write_leaves evidence _).2.trans hcur
  | evidence now evidence admitted free => exact (write_leaves evidence _).2.trans hcur
  | relabelled admitted can => exact hcur
  | invalidated now reach hit current reachability =>
      have htakes : op.takes d r = true := by
        cases op with
        | registerEntry record clk => cases hit
        | tombstone t => cases hit
        | _ => exact hit
      exact absurd ⟨accepted_of_selects hit, htakes⟩ h
  | @buried t r kind state floor =>
      have htakes : (Operation.tombstone t).takes d r = true := by
        show (t.target.kind == .state && r.stateId == t.target.state &&
          decide (r.stateGeneration.value ≤ t.target.generationFloor)) = true
        rw [kind, state, decide_eq_true floor]
        simp
      rw [tombstone_refused fun haccepted => h ⟨haccepted, htakes⟩, hr] at hr'
      exact absurd hcur (by rw [Option.some.inj hr']; exact Bool.false_ne_true)

end Step

/-! ## 2. Runs -/

/-- The call does not retire the record at the position. -/
def Operation.Spares (F : Type) [ScoreArith F] (i : Nat) (op : Operation) (d : Directory) : Prop :=
  ∀ r, d.records[i]? = some r → ¬ op.Retires F d r

instance (F : Type) [ScoreArith F] (i : Nat) (op : Operation) (d : Directory) :
    Decidable (op.Spares F i d) :=
  match h : d.records[i]? with
  | none => .isTrue fun r hr => by rw [h] at hr; cases hr
  | some r => decidable_of_iff (¬ op.Retires F d r)
      ⟨fun hno x hx => by rw [h] at hx; cases hx; exact hno, fun hall => hall r h⟩

/-- **The record at a position is current exactly as long as it is spared.** -/
theorem current_iff_spared (F : Type) [ScoreArith F] {ops : List Operation}
    (hops : ∀ op ∈ ops, op.isRecovery = false) {d : Directory} {i : Nat} {r : DirectoryRecord}
    (hr : d.records[i]? = some r) (hcur : r.current = true) :
    ∃ r', (after (Operation.step F) d ops).records[i]? = some r' ∧ Kept r r' ∧
      (r'.current = true ↔ Follows (Operation.step F) (Operation.Spares F i) d ops) := by
  obtain ⟨r', hr', hkept⟩ := kept_at_visited F hops hr _ (after_mem_visited _ ops d)
  refine ⟨r', hr', hkept, ?_⟩
  have hflag := @flag_after_iff Directory Operation (Operation.step F)
    (fun d => ∃ r, d.records[i]? = some r) (Operation.Spares F i)
    (fun op _ => op.isRecovery = false) (fun d => ∃ r, d.records[i]? = some r ∧ r.current = true)
    ?keep ?flag ops d ⟨r, hr⟩ ((follows_const _ ops d).mpr hops)
  case keep =>
    rintro op s ⟨x, hx⟩ hop
    obtain ⟨y, hy, _⟩ := kept_at_step F hop hx
    exact ⟨y, hy⟩
  case flag =>
    rintro op s ⟨x, hx⟩ hop
    obtain ⟨y, hy, hstays⟩ := kept_at_step F hop hx
    constructor
    · rintro ⟨z, hz, hzcur⟩
      obtain rfl : y = z := Option.some.inj (hy.symm.trans hz)
      refine ⟨⟨x, hx, hstays.current hzcur⟩, fun w hw hret => ?_⟩
      obtain rfl : x = w := Option.some.inj (hx.symm.trans hw)
      obtain ⟨v, hv, hgone⟩ := retired_at hx (hstays.current hzcur) hret
      obtain rfl : y = v := Option.some.inj (hy.symm.trans hv)
      exact absurd (hgone.symm.trans hzcur) Bool.false_ne_true
    · rintro ⟨⟨w, hw, hwcur⟩, hspares⟩
      exact ⟨y, hy, spared_at hop hw hwcur (hspares w hw) hy⟩
  constructor
  · intro hcur'
    exact (hflag.mp ⟨r', hr', hcur'⟩).2
  · intro hspared
    obtain ⟨x, hx, hxcur⟩ := hflag.mpr ⟨⟨r, hr, hcur⟩, hspared⟩
    rw [hr'] at hx
    cases hx
    exact hxcur

/-! ## 3. Queries -/

/-- What a record is identified by stays with it. -/
theorem Identified.of_kept {q : DirectoryQuery} {r r' : DirectoryRecord} (h : Kept r r') :
    Identified q r' ↔ Identified q r := by
  have hsame {a b : DirectoryRecord} (hcore : core b = core a) (ha : Identified q a) :
      Identified q b := by
    have hstate : b.stateId = a.stateId := congrArg (·.stateId) hcore
    have hgeneration : b.stateGeneration = a.stateGeneration := congrArg (·.stateGeneration) hcore
    have hkind : b.kind = a.kind := congrArg (·.kind) hcore
    have hname : b.nameSpace = a.nameSpace := congrArg (·.nameSpace) hcore
    have hknown : b.contentDigestKnown = a.contentDigestKnown :=
      congrArg (·.contentDigestKnown) hcore
    have hdigest : b.contentDigest = a.contentDigest := congrArg (·.contentDigest) hcore
    have hcompat : b.compatibility = a.compatibility := congrArg (·.compatibility) hcore
    exact
      { state := fun hq => hstate.trans (ha.state hq)
        stateGeneration := fun hq => hgeneration.trans (ha.stateGeneration hq)
        kind := fun hq => hkind.trans (ha.kind hq)
        nameSpace := fun hq => hname.trans (ha.nameSpace hq)
        contentDigest := fun hq => by
          rw [hknown, hdigest]
          exact ha.contentDigest hq
        compatibility := fun hq => hcompat.trans (ha.compatibility hq) }
  exact ⟨hsame h.core.symm, hsame h.core⟩

section Answers

variable {F : Type} [ScoreArith F] {d : Directory} {q : DirectoryQuery} {res : QueryResult F}
  {r : DirectoryRecord}

/-- Only records that match are returned. -/
theorem matching_of_returned (h : AnswersQuery d q res) (hr : ∃ c ∈ res.candidates, c.record = r) :
    Matching q r := by
  obtain ⟨refused, hperm, _⟩ := h.split
  obtain ⟨c, hc, rfl⟩ := hr
  have hmem := hperm.mem_iff.mp (List.mem_append_left refused (List.mem_map_of_mem hc))
  exact of_decide_eq_true (List.mem_filter.mp hmem).2

/-- A record that matches and does not qualify is named by a rejection. -/
theorem refused_of_unqualified (h : AnswersQuery d q res) (hr : r ∈ d.records)
    (hm : Matching q r) (hno : ¬ Qualified q r) : ∃ rj ∈ res.rejections, RejectedFor q r rj := by
  obtain ⟨refused, hperm, hnamed⟩ := h.split
  have hmem := hperm.mem_iff.mpr (List.mem_filter.mpr ⟨hr, decide_eq_true hm⟩)
  rcases List.mem_append.mp hmem with hreturned | hrefused
  · exact absurd ((h.qualified r hr hm).mp (List.mem_map.mp hreturned)) hno
  · exact exists_of_forall₂ (S := fun rj r => RejectedFor q r rj) hnamed.flip hrefused

end Answers

/-- **A published copy is found until it is retired.** A registration is admitted in a state
    reached, and calls other than recovery follow. The record is still on file where it was put,
    with its identity and content. A query returns it exactly if it is identified by the query,
    its evidence is what the query asks for, and no call has retired it; if only the evidence is
    missing, a rejection names the record and the filter it fails. -/
theorem published_found_iff (F : Type) [ScoreArith F] (pre rest : List Operation)
    (record : DirectoryRecord) (clk : Nat → TimestampNs) (d t : Directory)
    (order : Enumeration Nat) (q : DirectoryQuery) (hd : d = after (Operation.step F) {} pre)
    (hadmitted : d.checkRegistration record = none)
    (hrest : ∀ op ∈ rest, op.isRecovery = false)
    (ht : t = after (Operation.step F) d (.registerEntry record clk :: rest)) :
    let found := d.stamped record clk
    let spared := Follows (Operation.step F) (Operation.Spares F d.records.length)
      (d.registerEntry record clk).2 rest
    ∃ r res, t.records[d.records.length]? = some r ∧ Kept found r ∧
      (t.query (F := F) order q).1 = .ok res ∧
      ((∃ c ∈ res.candidates, c.record = r) ↔ Identified q found ∧ Qualified q r ∧ spared) ∧
      (Identified q found → ¬ Qualified q r → spared →
        ∃ rj ∈ res.rejections, RejectedFor q r rj) := by
  intro found spared
  have hput : (d.registerEntry record clk).2.records[d.records.length]? = some found := by
    rw [records_registerEntry record clk hadmitted]
    refine (List.getElem?_append_right ?_).trans ?_
    · rw [List.length_map]
    · rw [List.length_map, Nat.sub_self]
      rfl
  obtain ⟨r, hr, hkept, hcur⟩ := current_iff_spared F hrest hput rfl
  have hlast : after (Operation.step F) (d.registerEntry record clk).2 rest = t := ht.symm
  rw [hlast] at hr
  have hreached : Reached F (pre ++ .registerEntry record clk :: rest) t := by
    rw [ht, hd, ← after_append]
    exact after_mem_visited _ _ _
  have hmem : r ∈ t.records := List.mem_of_getElem? hr
  have hmatching : Matching q r ↔ spared ∧ Identified q found :=
    and_congr hcur (Identified.of_kept hkept)
  have hanswers := queryScan_answers (F := F) t q
  refine ⟨r, _, hr, hkept, query_answer (indexFits_reached hreached) order q, ?_, ?_⟩
  · constructor
    · intro hreturned
      have hm := matching_of_returned hanswers hreturned
      exact ⟨(hmatching.mp hm).2, (hanswers.qualified r hmem hm).mp hreturned,
        (hmatching.mp hm).1⟩
    · rintro ⟨hid, hqualified, hspared⟩
      exact (hanswers.qualified r hmem (hmatching.mpr ⟨hspared, hid⟩)).mpr hqualified
  · intro hid hno hspared
    exact refused_of_unqualified hanswers hmem (hmatching.mpr ⟨hspared, hid⟩) hno

/-- Behind the registration of the copy its owner reports it degraded, and an invalidation of an
    earlier epoch is refused. -/
def reportedSince : List Operation :=
  [healthUpdate .degraded, .invalidateState ⟨1⟩ ⟨1⟩ {} [] fun _ => 3]

/-- The copy is found behind the report, and not behind the invalidation that is granted. -/
theorem published_found_iff_reportedSince :
    let t (rest : List Operation) :=
      after (Operation.step Float) {} (registeredOnce ++ (reportedSince ++ rest))
    let granted : Operation := .invalidateState ⟨1⟩ ⟨1⟩ { epoch := ⟨1⟩, boot := ⟨1⟩ } [] fun _ => 4
    (∃ r res, ((t []).query (F := Float) (.stored _) anyCopy).1 = .ok res ∧
        ∃ c ∈ res.candidates, c.record = r ∧ r.health = .degraded) ∧
      ∃ r res, ((t [granted]).query (F := Float) (.stored _) anyCopy).1 = .ok res ∧
        (t [granted]).records[0]? = some r ∧ ¬ ∃ c ∈ res.candidates, c.record = r := by
  intro t granted
  constructor
  · have hstored : ((t []).records[0]?).all
        (fun r => decide (Eligible anyCopy r ∧ r.health = .degraded)) = true := by
      decide +kernel
    obtain ⟨r, res, hr, _, hres, hfound, _⟩ := published_found_iff Float oneCopy reportedSince
      (copyRecord ⟨1⟩ ⟨1⟩) (fun _ => 1) _ (t []) (.stored _) anyCopy rfl (by decide +kernel)
      (by decide) rfl
    have hr0 : (t []).records[0]? = some r := hr
    rw [hr0] at hstored
    obtain ⟨helig, hhealth⟩ := of_decide_eq_true hstored
    obtain ⟨c, hc, hrecord⟩ := hfound.mpr ⟨identifyMatches_iff.mp (by decide +kernel),
      (eligible_iff_qualified.mp helig).2, by decide +kernel, by decide +kernel, trivial⟩
    exact ⟨r, res, hres, c, hc, hrecord, hhealth⟩
  · obtain ⟨r, res, hr, _, hres, hfound, _⟩ := published_found_iff Float oneCopy
      (reportedSince ++ [granted]) (copyRecord ⟨1⟩ ⟨1⟩) (fun _ => 1) _ (t [granted]) (.stored _)
      anyCopy rfl (by decide +kernel) (by decide) rfl
    refine ⟨r, res, hres, hr, fun hreturned => ?_⟩
    obtain ⟨_, _, _, _, hspared, _⟩ := hfound.mp hreturned
    exact absurd hspared (by decide +kernel)

end CacheDirectory
