/-
  File:      CacheDirectory/Queries/Strangers.lean
  Subject:   STRANGERS DO NOT INTERFERE.

  Workers that share nothing but the coordinator do not notice each other. Where every call keeps
  its names on one side of a division of the ids, the calls of one side succeed and fail, and leave
  behind, what they do when the calls of the other side are never made; and a query for a state of
  that side gets the same answer.

  * `queryScan_slice` -- such a query is answered from the slice;
  * `strangers_unseen` -- two runs with the same own calls.
-/
import CacheDirectory.Invariants.Isolation
import CacheDirectory.Queries.Specification

namespace CacheDirectory

open Library Directory

section Answers

variable {F : Type} [ScoreArith F]

/-- An answer but for the stamps of its records. -/
def Candidate.unstamped (c : Candidate F) : Candidate F :=
  { c with record := CacheDirectory.unstamped c.record }

def QueryResult.unstamped (res : QueryResult F) : QueryResult F :=
  { res with candidates := res.candidates.map Candidate.unstamped }

variable {own : Identifier → Bool} {d : Directory} {q : DirectoryQuery} {r : DirectoryRecord}

/-! ## 1. One candidate -/

theorem processTag_slice (hloc : own (.location r.location) = true) :
    (d.slice own).processTag (unstamped r) = d.processTag r := by
  have hfind : (d.slice own).locations.find r.location = d.locations.find r.location :=
    KeyedMap.find_restrict (q := fun id => own (.location id)) hloc
  unfold processTag
  show (((d.slice own).locations.find r.location).map _).getD [] = _
  rw [hfind]

theorem isLocal_slice (hloc : own (.location r.location) = true) :
    (d.slice own).isLocal q (unstamped r) = d.isLocal q r := by
  unfold isLocal sameProcess
  rw [processTag_slice hloc]
  rfl

theorem replicaCount_slice (hdivided : Divided own d) (hstate : own (.state r.stateId) = true) :
    (d.slice own).replicaCount (unstamped r) = d.replicaCount r := by
  have hcount : (d.slice own).records.countP (fun x =>
      x.current && x.stateId == r.stateId && x.stateGeneration == r.stateGeneration) =
        d.records.countP fun x =>
          x.current && x.stateId == r.stateId && x.stateGeneration == r.stateGeneration := by
    refine countP_part (fun x hx hsame => ?_) fun _ => rfl
    simp only [Bool.and_eq_true, beq_iff_eq] at hsame
    rw [(hdivided.records x hx).eq (y := .state x.stateId) List.mem_cons_self
      (by simp [DirectoryRecord.names]), hsame.1.2]
    exact hstate
  exact congrArg UInt32.ofNat hcount

theorem candidateOf_slice (hdivided : Divided own d) (hstate : own (.state r.stateId) = true)
    (hloc : own (.location r.location) = true) :
    (d.slice own).candidateOf (F := F) q (unstamped r) = (d.candidateOf q r).unstamped := by
  have hgeneration : (d.slice own).exactGeneration (F := F) (unstamped r) q =
      d.exactGeneration r q := by
    have hid : (unstamped r).stateId = r.stateId := rfl
    unfold exactGeneration
    rw [hid, currentGen_slice hstate]
    rfl
  have hprocess : (d.slice own).sameProcess (unstamped r) q = d.sameProcess r q := by
    unfold sameProcess
    rw [processTag_slice hloc]
  have hfactors : (d.slice own).scoreFactors (F := F) (unstamped r) q = d.scoreFactors r q := by
    unfold scoreFactors
    rw [hgeneration, hprocess, replicaCount_slice hdivided hstate]
    rfl
  unfold candidateOf
  rw [hfactors]
  rfl

/-! ## 2. The answer -/

theorem explained_unstamped (res : QueryResult F) :
    explainQuery q res.unstamped = explainQuery q res := by
  have hcandidates : (res.candidates.map Candidate.unstamped).mapIdx explainCandidateLine =
      res.candidates.mapIdx explainCandidateLine := by
    rw [map_eq_mapIdx, List.mapIdx_mapIdx]
    rfl
  have hempty : (res.candidates.map Candidate.unstamped).isEmpty = res.candidates.isEmpty := by
    cases res.candidates <;> rfl
  have hlength := @List.length_map _ _ res.candidates Candidate.unstamped
  unfold explainQuery QueryResult.unstamped
  dsimp only
  rw [hcandidates, hempty, hlength]

theorem selectFirst_unstamped (cs : List (Candidate F)) :
    selectFirst (cs.map Candidate.unstamped) = (selectFirst cs).map Candidate.unstamped := by
  cases cs with
  | nil => rfl
  | cons c cs => rfl

/-- No filter asks for a stamp. -/
theorem matching_unstamped : Matching q (unstamped r) ↔ Matching q r := by
  rw [← considered_iff, ← considered_iff]
  rfl

section Slice

variable (hdivided : Divided own d) (hexact : q.exactState = true)
  (hstate : own (.state q.state) = true)

include hdivided hexact hstate

/-- A record that matches a query for an own state goes by own ids. -/
theorem own_of_matching (hr : r ∈ d.records) (hm : Matching q r) :
    own (.record r.recordId) = true ∧ own (.state r.stateId) = true ∧
      own (.location r.location) = true := by
  have hown : own (.state r.stateId) = true := by
    rw [hm.2.state hexact]
    exact hstate
  have h := hdivided.records r hr
  rw [h.eq (y := .state r.stateId) List.mem_cons_self (by simp [DirectoryRecord.names]),
    h.eq (x := .location r.location) (y := .state r.stateId) (by simp [DirectoryRecord.names])
      (by simp [DirectoryRecord.names])]
  exact ⟨hown, hown, hown⟩

theorem matching_slice : ((d.slice own).records.filter fun r => Matching q r) =
    (d.records.filter fun r => Matching q r).map unstamped :=
  filter_part (p := fun r => decide (Matching q r))
    (fun _ hr hm => (own_of_matching hdivided hexact hstate hr (of_decide_eq_true hm)).1)
    fun _ => decide_eq_decide.mpr matching_unstamped

theorem eligible_slice : ((d.slice own).records.filter fun r => Eligible q r) =
    (d.records.filter fun r => Eligible q r).map unstamped := by
  rw [filter_eligible, filter_eligible, matching_slice hdivided hexact hstate, List.filter_map]
  rfl

/-- The reasons do not speak of stamps. -/
theorem refusals_slice : refusals (d.slice own) q = refusals d q := by
  unfold refusals
  rw [matching_slice hdivided hexact hstate, List.filterMap_map]
  rfl

/-- Each candidate scores what it scored, so the order is the same. -/
theorem chosen_slice :
    chosen (F := F) (d.slice own) q = (chosen d q).map Candidate.unstamped := by
  have hcandidates : ((d.records.filter fun r => Eligible q r).map unstamped).map
      ((d.slice own).candidateOf (F := F) q) =
        ((d.records.filter fun r => Eligible q r).map (d.candidateOf q)).map
          Candidate.unstamped := by
    rw [List.map_map, List.map_map]
    refine List.map_congr_left fun r hr => ?_
    obtain ⟨hr, helig⟩ := List.mem_filter.mp hr
    have hm := (eligible_iff_qualified.mp (of_decide_eq_true helig)).1
    obtain ⟨_, hown, hloc⟩ := own_of_matching hdivided hexact hstate hr hm
    exact candidateOf_slice hdivided hown hloc
  unfold chosen
  rw [eligible_slice hdivided hexact hstate, hcandidates]
  symm
  apply List.map_mergeSort
  exact fun _ _ _ _ => rfl

/-- The outcome asks only where the one candidate is. -/
theorem outcomeOf_slice (rejections : List Rejection) (n : Nat) :
    outcomeOf (d.slice own) q rejections n (chosen (F := F) (d.slice own) q) =
      outcomeOf d q rejections n (chosen (F := F) d q) := by
  have hloc : ∀ c ∈ chosen (F := F) d q, own (.location c.record.location) = true := by
    intro c hc
    obtain ⟨⟨hr, helig⟩, _⟩ := mem_chosen.mp hc
    exact (own_of_matching hdivided hexact hstate hr (eligible_iff_qualified.mp helig).1).2.2
  rw [chosen_slice hdivided hexact hstate]
  rcases hchosen : chosen (F := F) d q with - | ⟨c, - | ⟨c', cs⟩⟩
  · rfl
  · have hlocal : (d.slice own).isLocal q c.unstamped.record = d.isLocal q c.record :=
      isLocal_slice (hloc c (hchosen ▸ List.mem_cons_self))
    show (if (d.slice own).isLocal q c.unstamped.record then QueryOutcome.foundLocal else _) = _
    rw [hlocal]
    rfl
  · rfl

/-- **A query for an own state is answered from the slice.** -/
theorem queryScan_slice : (d.slice own).queryScan (F := F) q = (d.queryScan q).unstamped := by
  have himpl : (d.slice own).queryImpl (F := F) q (List.range (d.slice own).records.length) =
      (d.queryImpl q (List.range d.records.length)).unstamped := by
    rw [queryImpl_eq, queryImpl_eq, outcomeOf_slice hdivided hexact hstate,
      chosen_slice hdivided hexact hstate, refusals_slice hdivided hexact hstate,
      matching_slice hdivided hexact hstate, List.length_map, List.length_map,
      selectFirst_unstamped]
    rfl
  unfold queryScan
  dsimp only
  rw [himpl, explained_unstamped]
  rfl

end Slice

end Answers

/-! ## 3. Runs -/

/-- **Strangers do not interfere.** Two runs in which every call keeps its names on one side, and
    in which the same own calls are made in the same order, whatever the others do: what is on file
    under own ids is the same but for its stamps, the same own calls succeed and fail, and every
    query for an own state gets the same answer. -/
theorem strangers_unseen (F : Type) [ScoreArith F] (own : Identifier → Bool)
    (ops ops' : List Operation) (hops : ∀ op ∈ ops, op.Sided own)
    (hops' : ∀ op ∈ ops', op.Sided own)
    (h : ops.filter (Operation.concerns own) = ops'.filter (Operation.concerns own)) :
    (after (Operation.step F) {} ops).slice own = (after (Operation.step F) {} ops').slice own ∧
      (reports (Operation.step F) (Operation.failure F) {} ops).filter
          (fun x => x.1.concerns own) =
        (reports (Operation.step F) (Operation.failure F) {} ops').filter
          (fun x => x.1.concerns own) ∧
      ∀ order order' q, q.exactState = true → own (.state q.state) = true →
        ((after (Operation.step F) {} ops).query (F := F) order q).1.map QueryResult.unstamped =
          ((after (Operation.step F) {} ops').query (F := F) order' q).1.map
            QueryResult.unstamped := by
  obtain ⟨hslice, hreports⟩ := seen_of_concerns (F := F) ops hops
  obtain ⟨hslice', hreports'⟩ := seen_of_concerns (F := F) ops' hops'
  have hsame : (after (Operation.step F) {} ops).slice own =
      (after (Operation.step F) {} ops').slice own := by
    rw [hslice, hslice', h]
  refine ⟨hsame, by rw [hreports, hreports', h], fun order order' q hexact hstate => ?_⟩
  rw [(query_eq_scan F ops _ order q (after_mem_visited _ _ _)).1,
    (query_eq_scan F ops' _ order' q (after_mem_visited _ _ _)).1]
  show Except.ok _ = Except.ok _
  rw [← queryScan_slice (divided_after ops hops) hexact hstate, hsame,
    queryScan_slice (divided_after ops' hops') hexact hstate]

/-- The ids worker 1 goes by. -/
def firstRealm (x : Identifier) : Bool :=
  [.boot ⟨1⟩, .cache ⟨1⟩, .location ⟨1⟩, .replica ⟨1⟩, .state ⟨1⟩, .record ⟨1⟩].contains x

/-- Worker 1 registers its copy while worker 2 comes, registers a cache, retires a state and is
    lost. -/
def amongStrangers : List Operation :=
  [.registerWorkerSession { boot := ⟨2⟩, worker := ⟨2⟩ }] ++ oneCopy ++
    [.registerCache { attachedCache ⟨1⟩ ⟨2⟩ with workerBoot := ⟨2⟩ },
      .invalidateState ⟨2⟩ ⟨1⟩ { epoch := ⟨1⟩, boot := ⟨2⟩ } [] (fun _ => 1), .nextObjectId,
      .registerEntry (copyRecord ⟨1⟩ ⟨1⟩) fun _ => 1, .onWorkerLoss ⟨2⟩ []]

theorem strangers_unseen_amongStrangers :
    ((after (Operation.step Float) {} amongStrangers).query (F := Float) (.stored _)
        { exactState := true, state := ⟨1⟩ }).1.map QueryResult.unstamped =
      (afterRegistration.query (F := Float) (.stored _)
        { exactState := true, state := ⟨1⟩ }).1.map QueryResult.unstamped :=
  (strangers_unseen Float firstRealm amongStrangers registeredOnce (by decide) (by decide) rfl).2.2
    _ _ _ rfl rfl

end CacheDirectory
