/-
  File:      CacheDirectory/Wire/Answers.lean
  Subject:   WHICH ANSWERS THE CLIENT CAN READ.

  The client reads texts of at most 2^20 bytes, at most a million candidates and a million
  rejections, and no frame with more than 64 MiB. The texts of the server are fixed, but for one:
  the acknowledgement of an invalidation is a notice and behind it the reason of the request,
  which alone may be 2^20 bytes long. And a query result grows with the records that match.

  * `Readable` -- the frame fits, the deserializer of the client's call accepts it, and the call
    returns true unless the server answered with an error;
  * `readable_error`, `readable_ack_iff`, `readable_result_iff` -- the three kinds of answers;
  * `terse_guarded`, `terse_...` -- every failure of an operation has a short text;
  * `answers_readable_iff` -- all answers to a frame are readable exactly when the reason of an
    invalidation leaves room for the notice and the answer of a query is within the limits.
-/
import CacheDirectory.Invariants.Descriptors
import CacheDirectory.Recovery.Eligibility
import CacheDirectory.Wire.Exchanges
import CacheDirectory.Wire.Messages
import Mathlib.Algebra.Order.BigOperators.Group.List
import Mathlib.Algebra.Order.Group.Nat

namespace CacheDirectory

open Library Protocol Directory

/-! ## 1. The client -/

namespace DcdClient

/-- What `send_wait_ack` returns on the frame it received. -/
def sendWaitAck (resp : Frame) : Bool :=
  match resp.kind with
  | .ack =>
      match deserializeAck resp.payload with
      | .error _ => false
      | .ok a => a.ok
  | _ => false

/-- What `hello` returns. -/
def hello (resp : Frame) : Bool :=
  resp.kind == .ack && (deserializeEpochReply resp.payload).isOk

/-- What `query` returns; `result` is the object of its caller. -/
def query (result : QueryResult F64) (resp : Frame) : Bool :=
  resp.kind == .queryResult && (deserializeQueryResult result resp.payload).isOk

/-- The call that sends requests of the kind, on the frame it received. -/
def returns (request : MessageKind) (result : QueryResult F64) (resp : Frame) : Bool :=
  match request with
  | .hello => hello resp
  | .query => query result resp
  | _ => sendWaitAck resp

/-- Does the deserializer this call uses on a frame of the kind accept the payload? -/
def accepts (request : MessageKind) (result : QueryResult F64) (resp : Frame) : Bool :=
  match resp.kind with
  | .ack =>
      if request == .hello then (deserializeEpochReply resp.payload).isOk
      else (deserializeAck resp.payload).isOk
  | .error => (deserializeError resp.payload).isOk
  | .queryResult => (deserializeQueryResult result resp.payload).isOk
  | _ => false

end DcdClient

/-- The answer fits in a frame, the client deserializes it, and what is no error is not reported
    as one. -/
structure Readable (request : MessageKind) (result : QueryResult F64) (a : Frame) : Prop where
  size : a.payload.length ≤ maxPayload.toNat
  accepted : DcdClient.accepts request result a = true
  reported : a.kind ≠ .error → DcdClient.returns request result a = true

/-! ## 2. Sizes -/

section Sizes

open ByteWriter

@[simp] theorem length_wrAuth (a : AuthorityEnvelope) : (wrAuth a).length = 32 := by
  simp [wrAuth, wAuth]

@[simp] theorem length_wrRecLease (l : LeaseDescriptor) : (wrRecLease l).length = 82 := by
  simp [wrRecLease]

/-- The bytes of a record on the wire. -/
def recordSize (r : DirectoryRecord) : Nat :=
  303 + r.nameSpace.length + (if r.contentDigestKnown then 32 else 0) +
    if r.hasLease then 82 else 0

theorem length_wrRec (r : DirectoryRecord) : (wrRec r).length = recordSize r := by
  unfold wrRec recordSize
  simp only [List.length_flatten, List.map_cons, List.map_nil, List.sum_cons, List.sum_nil,
    length_u32, length_u64, length_f64, length_strong, length_flag, length_enum, length_string,
    length_wrAuth, length_wrRecLease, length_optional, bytes, List.Vector.toList_length]
  omega

@[simp] theorem length_wrRejection (rj : Rejection) : (wrRejection rj).length = 41 := by
  simp [wrRejection]

theorem length_wrFactor (f : RankingFactor F64) : (wrFactor f).length = 33 + f.note.length := by
  simp [wrFactor]
  omega

/-- The bytes of a candidate: its record, and seventeen factors whose notes are fixed. -/
def candidateSize (r : DirectoryRecord) : Nat := recordSize r + 810

theorem nameSpace_le_candidateSize (r : DirectoryRecord) :
    r.nameSpace.length ≤ candidateSize r := by
  unfold candidateSize recordSize
  omega

end Sizes

/-! ## 3. Results -/

section Results

variable {F : Type} [WireDouble F]

theorem length_wrCandidate (c : Candidate F64) : (wrCandidate c).length =
    recordSize c.record + 13 + (c.factors.map fun f => 33 + f.note.length).sum := by
  unfold wrCandidate
  simp only [List.length_flatten, List.map_cons, List.map_nil, List.sum_cons, List.sum_nil,
    length_wrRec, length_f64, length_flag, length_u32, List.length_flatMap, length_wrFactor]
  omega

theorem length_serializeQueryResult (qr : QueryResult F64) :
    (serializeQueryResult qr).length =
      25 + (qr.candidates.map fun c => (wrCandidate c).length).sum + 41 * qr.rejections.length := by
  unfold serializeQueryResult
  simp only [List.length_flatten, List.map_cons, List.map_nil, List.sum_cons, List.sum_nil,
    length_strong, length_enum, length_u32, List.length_flatMap, length_wrRejection,
    List.map_const', List.sum_replicate_nat]
  omega

/-- The notes of the factors are those of the source, whatever is scored. -/
theorem notes_of_scoreFactors (d : Directory) (r : DirectoryRecord) (q : DirectoryQuery) :
    ((d.scoreFactors (F := F) r q).map fun f => 33 + f.note.length).sum = 797 := by
  unfold scoreFactors factor
  simp only [List.map_cons, List.map_nil, List.sum_cons, List.sum_nil]
  decide

/-- The query considers the record and a hard filter refuses it. -/
def refused (q : DirectoryQuery) (r : DirectoryRecord) : Bool :=
  considered q r && (hardReject r q).isSome

/-- The bytes of the answer to a query. -/
def resultSize (d : Directory) (q : DirectoryQuery) : Nat :=
  25 + ((d.records.filter fun r => Eligible q r).map candidateSize).sum +
    41 * d.records.countP (refused q)

/-- The answer to the query is within the limits of the reader and of a frame. -/
structure ResultFits (d : Directory) (q : DirectoryQuery) : Prop where
  nameSpaces : ∀ r ∈ d.records, Eligible q r → r.nameSpace.length ≤ 2 ^ 20
  rejections : d.records.countP (refused q) ≤ 1000000
  size : resultSize d q ≤ maxPayload.toNat

/-- What a scan answers with, as it is written. -/
def scanOnWire (F : Type) [WireDouble F] (d : Directory) (q : DirectoryQuery) : QueryResult F64 :=
  (d.queryScan (F := F) q).onWire

theorem records_scanOnWire (d : Directory) (q : DirectoryQuery) :
    ((scanOnWire F d q).candidates.map (·.record)).Perm
      (d.records.filter fun r => Eligible q r) := by
  have hperm := candidates_perm (F := F) d q
  have hmap : (scanOnWire F d q).candidates.map (·.record) =
      (d.queryImpl (F := F) q (List.range d.records.length)).candidates.map (·.record) := by
    show List.map _ (List.map _ _) = _
    rw [List.map_map]
    rfl
  rw [hmap]
  refine hperm.trans (.of_eq ?_)
  rw [List.filter_filter]
  refine List.filter_congr fun r _ => ?_
  rw [Bool.eq_iff_iff, Bool.and_eq_true, decide_eq_true_iff, Option.isNone_iff_eq_none]
  exact and_comm

theorem factors_scanOnWire {d : Directory} {q : DirectoryQuery} {c : Candidate F64}
    (hc : c ∈ (scanOnWire F d q).candidates) :
    c.factors.length = 17 ∧ (c.factors.map fun f => 33 + f.note.length).sum = 797 := by
  obtain ⟨x, hx, rfl⟩ := List.mem_map.mp hc
  obtain ⟨b, hb⟩ := candidate_scored d q _ hx
  have hfactors : x.factors = d.scoreFactors x.record q := congrArg (·.factors) hb
  dsimp only
  rw [hfactors, List.map_map, List.length_map]
  exact ⟨rfl, notes_of_scoreFactors (F := F) d x.record q⟩

theorem length_rejections (d : Directory) (q : DirectoryQuery) :
    (scanOnWire F d q).rejections.length = d.records.countP (refused q) := by
  show (d.queryImpl (F := F) q (List.range d.records.length)).rejections.length = _
  rw [rejections_eq, List.length_filterMap_eq_countP, List.countP_filter]
  refine List.countP_congr fun r _ => ?_
  rw [Option.isSome_map, Bool.and_comm]
  rfl

/-- **The size of the answer.** -/
theorem length_result (d : Directory) (q : DirectoryQuery) :
    (serializeQueryResult (scanOnWire F d q)).length = resultSize d q := by
  have heach : (scanOnWire F d q).candidates.map (fun c => (wrCandidate c).length) =
      ((scanOnWire F d q).candidates.map (·.record)).map candidateSize := by
    rw [List.map_map]
    refine List.map_congr_left fun c hc => ?_
    rw [length_wrCandidate, (factors_scanOnWire hc).2]
    rfl
  rw [length_serializeQueryResult, heach, ((records_scanOnWire d q).map candidateSize).sum_eq,
    length_rejections]
  rfl

/-- An answer that fits in a frame has few candidates. -/
theorem length_candidates (d : Directory) (q : DirectoryQuery)
    (h : resultSize d q ≤ maxPayload.toNat) : (scanOnWire F d q).candidates.length ≤ 1000000 := by
  have hcount : (scanOnWire F d q).candidates.length =
      (d.records.filter fun r => Eligible q r).length := by
    rw [← (records_scanOnWire (F := F) d q).length_eq, List.length_map]
  have hsum := List.card_nsmul_le_sum ((d.records.filter fun r => Eligible q r).map candidateSize)
    810 (List.forall_mem_map.mpr fun r _ => Nat.le_add_left _ _)
  rw [List.length_map, Nat.nsmul_eq_mul] at hsum
  unfold resultSize at h
  rw [maxPayload_toNat] at h
  omega

/-- What fits in a frame is refused for a namespace, or for the number of its rejections. -/
theorem accepts_result_iff (d : Directory) (q : DirectoryQuery) (x : QueryResult F64)
    (h : resultSize d q ≤ maxPayload.toNat) :
    (deserializeQueryResult x (serializeQueryResult (scanOnWire F d q))).isOk = true ↔
      (∀ r ∈ d.records, Eligible q r → r.nameSpace.length ≤ 2 ^ 20) ∧
        d.records.countP (refused q) ≤ 1000000 := by
  have hlen := length_rejections (F := F) d q
  have hcands := length_candidates (F := F) d q h
  have hrejs : (scanOnWire F d q).rejections.length < 2 ^ 32 := by
    unfold resultSize at h
    rw [maxPayload_toNat] at h
    omega
  have hmem (r : DirectoryRecord) : (∃ c ∈ (scanOnWire F d q).candidates, c.record = r) ↔
      r ∈ d.records ∧ Eligible q r := by
    rw [← List.mem_map, (records_scanOnWire d q).mem_iff, List.mem_filter, decide_eq_true_iff]
  have hname : ∀ c ∈ (scanOnWire F d q).candidates, c.record.nameSpace.length < 2 ^ 64 := by
    intro c hc
    obtain ⟨hr, helig⟩ := (hmem c.record).mp ⟨c, hc, rfl⟩
    have hone : candidateSize c.record ≤
        ((d.records.filter fun r => Eligible q r).map candidateSize).sum :=
      List.le_sum_of_mem (List.mem_map_of_mem
        (List.mem_filter.mpr ⟨hr, decide_eq_true helig⟩))
    have hname := nameSpace_le_candidateSize c.record
    unfold resultSize at h
    rw [maxPayload_toNat] at h
    omega
  have hnotes : ∀ c ∈ (scanOnWire F d q).candidates, ∀ f ∈ c.factors,
      f.note.length ≤ 2 ^ 20 := by
    intro c hc f hf
    have hone : 33 + f.note.length ≤ _ :=
      List.le_sum_of_mem (List.mem_map_of_mem (f := fun f => 33 + f.note.length) hf)
    rw [(factors_scanOnWire hc).2] at hone
    omega
  have hreads := (rdQueryResult_fits x (Nat.lt_of_le_of_lt hcands (by decide)) hrejs
    fun c hc => rdCandidate_fits (hname c hc) (by rw [(factors_scanOnWire hc).1]; decide)
      (hnotes c hc)).isOk_runAll_iff ()
  refine hreads.trans ?_
  rw [hlen, and_iff_right hcands]
  refine and_congr_left fun _ => ?_
  constructor
  · intro hall r hr helig
    obtain ⟨c, hc, rfl⟩ := (hmem r).mpr ⟨hr, helig⟩
    exact hall c hc
  · intro hall c hc
    obtain ⟨hr, helig⟩ := (hmem c.record).mp ⟨c, hc, rfl⟩
    exact hall c.record hr helig

theorem accepts_result (x : QueryResult F64) (payload : Bytes) :
    DcdClient.accepts .query x { kind := .queryResult, payload } =
      (deserializeQueryResult x payload).isOk := rfl

theorem returns_result (x : QueryResult F64) (payload : Bytes) :
    DcdClient.returns .query x { kind := .queryResult, payload } =
      (deserializeQueryResult x payload).isOk := rfl

/-- **A query result is readable exactly when it is within the limits.** -/
theorem readable_result_iff (d : Directory) (q : DirectoryQuery) (x : QueryResult F64) :
    Readable .query x
        { kind := .queryResult, payload := serializeQueryResult (scanOnWire F d q) } ↔
      ResultFits d q := by
  constructor
  · intro h
    have hsize := h.size
    rw [length_result] at hsize
    have haccepted := h.accepted
    rw [accepts_result, accepts_result_iff d q x hsize] at haccepted
    exact ⟨haccepted.1, haccepted.2, hsize⟩
  · intro h
    have hok := (accepts_result_iff (F := F) d q x h.size).mpr ⟨h.nameSpaces, h.rejections⟩
    have hsize : (serializeQueryResult (scanOnWire F d q)).length ≤ maxPayload.toNat := by
      rw [length_result]
      exact h.size
    refine ⟨hsize, ?_, fun _ => ?_⟩
    · rw [accepts_result, hok]
    · rw [returns_result, hok]

end Results

/-! ## 4. Failures -/

/-- The text of the failure is within the reader's bound. -/
def Failure.Terse (f : Failure) : Prop := (ascii f.errorText).length ≤ 1 <<< 20

instance (f : Failure) : Decidable f.Terse := inferInstanceAs (Decidable (_ ≤ _))

section Failures

variable {d : Directory} {f : Failure}

/-- Behind checks whose texts are all short. -/
theorem terse_firstFailure {checks : List (Bool × Failure)} (hf : firstFailure checks = some f)
    (h : ∀ c ∈ checks, c.2.Terse := by
      simp only [List.forall_mem_cons, List.not_mem_nil, false_implies, implies_true, and_true]
      decide) : f.Terse :=
  h (true, f) (mem_of_firstFailure hf)

/-- Every operation that only checks. -/
theorem terse_guarded {α σ : Type} {checks : List (Bool × Failure)} {s : σ} {act : α × σ}
    (hf : (guarded checks s act).1 = .error f)
    (h : ∀ c ∈ checks, c.2.Terse := by
      simp only [List.forall_mem_cons, List.not_mem_nil, false_implies, implies_true, and_true]
      decide) : f.Terse :=
  h (true, f) (mem_of_guarded_failed hf)

theorem terse_updateEvidence {write : DirectoryRecord → DirectoryRecord} {id : DirectoryRecordId}
    {env : AuthorityEnvelope} {now : TimestampNs}
    (hf : (updateEvidence write id env now d).1 = .error f) : f.Terse := by
  unfold updateEvidence at hf
  cases hfound : d.findRecordIndex id with
  | none =>
      rw [hfound] at hf
      cases hf
      decide
  | some i =>
      simp only [hfound] at hf
      cases hauth : d.checkUpdateAuthority (d.records.get i) env with
      | some g =>
          rw [hauth] at hf
          cases hf
          exact terse_firstFailure hauth
      | none =>
          simp only [hauth] at hf
          split at hf
          · cases hf
            decide
          · cases hf

theorem terse_renewLease {id : LeaseId} {env : AuthorityEnvelope} {now : TimestampNs}
    (hf : (d.renewLease id env now).1 = .error f) : f.Terse := by
  unfold renewLease at hf
  cases hfind : d.leases.find id with
  | none =>
      rw [hfind] at hf
      cases hf
      decide
  | some l =>
      simp only [hfind] at hf
      exact terse_guarded hf

theorem terse_registerEntry {record : DirectoryRecord} {clk : Nat → TimestampNs}
    (hf : (d.registerEntry record clk).1 = .error f) : f.Terse := by
  unfold registerEntry at hf
  cases hcheck : d.checkRegistration record with
  | none =>
      rw [hcheck] at hf
      cases hf
  | some g =>
      rw [hcheck] at hf
      cases hf
      unfold checkRegistration at hcheck
      rcases Option.or_eq_some_iff.mp hcheck with hfirst | ⟨_, hdup⟩
      · refine terse_firstFailure hfirst ?_
        unfold dependencyChecks tombstoneCheck generationCheck
        simp only [List.cons_append, List.nil_append, List.forall_mem_cons, List.not_mem_nil,
          false_implies, implies_true, and_true]
        decide
      · obtain ⟨r, _, rfl⟩ := Option.map_eq_some_iff.mp hdup
        split
        · decide
        · decide

theorem terse_save {o : MapOrders} {outcome : FileOutcome} {path : Bytes}
    (hf : d.save o outcome path = .error f) : f.Terse := by
  cases outcome with
  | done => cases hf
  | cannotOpen | writeFailed | closeFailed | renameFailed =>
      cases hf
      decide

/-- What parsing a snapshot refuses for. -/
theorem terse_parseSnapshot {buf : Bytes} (hf : parseSnapshot buf = .error (.refused f)) :
    f.Terse := by
  have hheader : Refuses CacheDirectory.readHeader Failure.Terse := by
    unfold CacheDirectory.readHeader
    refine .seq (.orFail (by decide)) fun _ => .seq (.refuseIf (by decide)) fun _ =>
      .seq (.orFail (by decide)) fun _ => .seq (.refuseIf (by decide)) fun _ =>
      .seq (.orFail (by decide)) fun _ => .seq (.orFail (by decide)) fun _ => .pure
  have hcount : Refuses readCount Failure.Terse := .orFail (by decide)
  have hbody : Refuses readBody Failure.Terse := by
    unfold readBody readEntities
    refine .seq hcount fun _ => .seq hcount fun _ => .seq hcount fun _ => .seq hcount fun _ =>
      .seq hcount fun _ => .seq hcount fun _ => .seq hcount fun _ =>
      .seq (.orFail (by decide)) fun _ => .seq (.orFail (by decide)) fun _ =>
      .seq (.refuseIf (by decide)) fun _ => .seq (.times (.orFail (by decide)) _) fun _ =>
      .seq (.times (.orFail (by decide)) _) fun _ => .seq (.times (.orFail (by decide)) _) fun _ =>
      .seq (.times (.orFail (by decide)) _) fun _ => .seq (.times (.orFail (by decide)) _) fun _ =>
      .seq (.times (.orFail (by decide)) _) fun _ => .seq (.times (.orFail (by decide)) _) fun _ =>
      .pure
  unfold parseSnapshot at hf
  split at hf
  · cases hf
    decide
  · cases hread : CacheDirectory.readHeader.raw ⟨buf, 0⟩ with
    | error e =>
        rw [hread] at hf
        cases hf
        exact hheader _ f hread
    | ok x =>
        simp only [hread] at hf
        split at hf
        · cases hf
          decide
        · split at hf
          · cases hf
            decide
          · exact hbody.runAll (by decide) hf

/-- What the checks behind parsing refuse for. -/
theorem terse_problem {s : Snapshot} (hf : s.problem = some f) : f.Terse := by
  refine terse_firstFailure hf ?_
  unfold dupCheck
  simp only [List.mem_append, or_imp, forall_and, List.forall_mem_cons, List.not_mem_nil,
    false_implies, implies_true, and_true, List.mem_flatMap, forall_exists_index, and_imp]
  refine ⟨⟨by decide, ?_⟩, by decide⟩
  intro c x _
  simp only [List.mem_cons, List.not_mem_nil, or_false]
  rintro (rfl | rfl)
  · exact (by decide : (persistenceCorrupt "malformed tombstone").Terse)
  · exact (by decide : (persistenceCorrupt "malformed tombstone kind").Terse)

theorem terse_recover {contents : Option Bytes} {d' : Directory}
    (hf : d.recover contents = some (.error f, d')) : f.Terse := by
  unfold Directory.recover at hf
  rcases contents with - | - | ⟨b, bs⟩
  · cases hf
    decide
  · cases hf
    decide
  · simp only at hf
    unfold recoverFromBuffer at hf
    cases hp : parseSnapshot (b :: bs) with
    | error e =>
        rw [hp] at hf
        cases e with
        | outside => cases hf
        | refused g =>
            cases hf
            exact terse_parseSnapshot hp
    | ok s =>
        simp only [hp] at hf
        cases hs : s.problem with
        | some g =>
            rw [hs] at hf
            cases hf
            exact terse_problem hs
        | none =>
            rw [hs] at hf
            cases hf

end Failures

/-! ## 5. Answers -/

namespace CoordinatorServer

variable {F : Type} [WireDouble F] {w : Surroundings} {d : Directory} {x : QueryResult F64}
  {request : MessageKind}

theorem readable_error (request : MessageKind) (x : QueryResult F64) (e : DirectoryError)
    {m : Bytes} (h : m.length ≤ 1 <<< 20) : Readable request x (respondError e m) := by
  have hok := (rdError_decodes e h).runAll_ok ()
  refine ⟨?_, ?_, fun hkind => absurd rfl hkind⟩
  · show (serializeError e m).length ≤ _
    unfold serializeError
    rw [List.length_append, length_enum, length_string, maxPayload_toNat]
    omega
  · show (deserializeError (serializeError e m)).isOk = true
    rw [show deserializeError (serializeError e m) = .ok (e, m) from hok]
    rfl

theorem readable_failure {f : Failure} (h : f.Terse) : Readable request x (respondFailure f) :=
  readable_error request x f.error h

theorem readable_malformed {text : String} (h : (ascii text).length ≤ 1 <<< 20) :
    Readable request x (respondMalformed text) :=
  readable_error request x .protocolViolation h

/-- The calls that wait for an acknowledgement. -/
def Awaits (request : MessageKind) : Prop := request ≠ .hello ∧ request ≠ .query

instance (request : MessageKind) : Decidable (Awaits request) :=
  inferInstanceAs (Decidable (_ ∧ _))

theorem accepts_ack (hreq : Awaits request) (a : AckResult) :
    DcdClient.accepts request x (respondAck a) = (deserializeAck (serializeAck a)).isOk := by
  show (if _ then _ else _) = _
  rw [if_neg (by simpa using hreq.1)]
  rfl

theorem returns_ack (hreq : Awaits request) (a : AckResult) :
    DcdClient.returns request x (respondAck a) =
      match deserializeAck (serializeAck a) with
      | .error _ => false
      | .ok a => a.ok := by
  obtain ⟨hhello, hquery⟩ := hreq
  unfold DcdClient.returns
  split
  · contradiction
  · contradiction
  · rfl

/-- A message that is too long is a malformed acknowledgement. -/
theorem unreadable_ack (hreq : Awaits request) {m : Bytes} (hm : m.length ≤ 2 ^ 21)
    (hlong : ¬ m.length ≤ 2 ^ 20) :
    DcdClient.accepts request x (respondAck { message := m }) = false ∧
      DcdClient.returns request x (respondAck { message := m }) = false := by
  obtain ⟨e, he⟩ :=
    ((rdAck_fits (a := { message := m }) (Nat.lt_of_le_of_lt hm (by decide))).runAll ()).2 hlong
  rw [accepts_ack hreq, returns_ack hreq,
    show deserializeAck (serializeAck { message := m }) = .error _ from he]
  exact ⟨rfl, rfl⟩

/-- **An acknowledgement is readable exactly when its message is within the reader's bound.** -/
theorem readable_ack_iff (hreq : Awaits request) {m : Bytes} (hm : m.length ≤ 2 ^ 21) :
    Readable request x (respondAck { message := m }) ↔ m.length ≤ 2 ^ 20 := by
  constructor
  · intro h
    by_contra hlong
    have hacc := h.accepted
    rw [(unreadable_ack hreq hm hlong).1] at hacc
    cases hacc
  · intro hshort
    have hok : deserializeAck (serializeAck { message := m }) = .ok { message := m } :=
      (rdAck_decodes hshort).runAll_ok ()
    refine ⟨?_, ?_, fun _ => ?_⟩
    · show (serializeAck { message := m }).length ≤ _
      unfold serializeAck
      rw [List.length_append, length_flag, length_string, maxPayload_toNat]
      show 1 + (8 + m.length) ≤ _
      omega
    · rw [accepts_ack hreq, hok]
      rfl
    · rw [returns_ack hreq, hok]

theorem readable_epochReply (epoch : CoordinatorEpoch) :
    Readable .hello x { kind := .ack, payload := serializeEpochReply epoch } := by
  have hok := (rdEpochReply_decodes epoch).runAll_ok ()
  have hread : (deserializeEpochReply (serializeEpochReply epoch)).isOk = true := by
    rw [show deserializeEpochReply (serializeEpochReply epoch) = .ok epoch from hok]
    rfl
  refine ⟨?_, hread, fun _ => hread⟩
  show (ByteWriter.strong epoch).length ≤ _
  rw [length_strong]
  decide

/-- **The case of most kinds**: with fixed texts and short failures, both answers are readable. -/
theorem readable_serve {α β : Type} {parsed : Deserialized α} {malformed : String}
    {call : α → Directory → Result β × Directory} {done : β → Bytes} (hreq : Awaits request)
    (hmalformed : (ascii malformed).length ≤ 1 <<< 20)
    (hdone : ∀ b, (done b).length ≤ 1 <<< 20)
    (hcall : ∀ m f, (call m d).1 = .error f → f.Terse) :
    ∀ a ∈ (serve parsed malformed call done d).1, Readable request x a := by
  unfold serve
  cases parsed with
  | error e => exact List.forall_mem_singleton.mpr (readable_malformed hmalformed)
  | ok m =>
      have hterse := hcall m
      simp only
      rcases hout : call m d with ⟨f | b, d'⟩
      · rw [hout] at hterse
        exact List.forall_mem_singleton.mpr (readable_failure (hterse f rfl))
      · exact List.forall_mem_singleton.mpr
          ((readable_ack_iff hreq (Nat.le_trans (hdone b) (by decide))).mpr (hdone b))

/-- The bytes in front of the reason, in the acknowledgement of an invalidation. -/
def noticeLength (d : Directory) (m : InvalidateMsg) : Nat :=
  match m.kind.toNat with
  | 0 =>
      24 + (toString
        (countSelected (d.selectState ⟨m.target⟩ ⟨m.generation⟩ m.env) d.records).toNat).length
  | 1 => 19
  | 2 => 21
  | 3 => 22
  | _ => 25

theorem noticeLength_le (d : Directory) (m : InvalidateMsg) : noticeLength d m ≤ 2 ^ 20 := by
  have hdigits (n : UInt32) : (toString n.toNat).length ≤ 10 := by
    have hlt : n.toNat < 10 ^ 10 := Nat.lt_trans n.toNat_lt (by decide)
    exact (Nat.length_repr_le_iff (by decide)).mpr hlt
  unfold noticeLength
  split
  · have := hdigits (countSelected (d.selectState ⟨m.target⟩ ⟨m.generation⟩ m.env) d.records)
    omega
  all_goals decide

/-- The two ways an invalidation ends, and the length of the message. -/
theorem invalidateWith_message {env : AuthorityEnvelope} {affected : UInt32} {reason : Bytes}
    {act : Directory → Directory} (notice : Bytes) (n : Nat) (hn : notice.length = n) :
    (env.epoch ≠ d.epoch ∧
        d.invalidateWith env affected (notice ++ reason) act =
          (.error ⟨.staleEpoch, "stale epoch"⟩, d)) ∨
      env.epoch = d.epoch ∧ ∃ r d',
        d.invalidateWith env affected (notice ++ reason) act = (.ok r, d') ∧
          r.message.length = n + reason.length := by
  subst hn
  unfold invalidateWith
  by_cases hepoch : env.epoch = d.epoch
  · refine .inr ⟨hepoch, _, _, guarded_of_none ?_, List.length_append⟩
    simp [hepoch]
  · refine .inl ⟨hepoch, ?_⟩
    unfold guarded
    simp [hepoch]

theorem length_ascii (s : String) : (ascii s).length = s.length := by
  unfold ascii
  rw [List.length_map]
  rfl

/-- **What an invalidation of a known kind leaves for the answer.** -/
theorem invalidateByKind_spec (m : InvalidateMsg) (hkind : m.kind.toNat ≤ 4) :
    (m.env.epoch ≠ d.epoch ∧
        invalidateByKind w m d = ([], .error ⟨.staleEpoch, "stale epoch"⟩, d)) ∨
      m.env.epoch = d.epoch ∧ ∃ r d', invalidateByKind w m d = ([], .ok r, d') ∧
        r.message.length = noticeLength d m + m.reason.length := by
  have hspoken {call : Result InvalidateResult × Directory} {n : Nat}
      (h : (m.env.epoch ≠ d.epoch ∧ call = (.error ⟨.staleEpoch, "stale epoch"⟩, d)) ∨
        m.env.epoch = d.epoch ∧ ∃ r d', call = (.ok r, d') ∧
          r.message.length = n + m.reason.length) :
      (m.env.epoch ≠ d.epoch ∧
          (([] : List Frame), call) = ([], .error ⟨.staleEpoch, "stale epoch"⟩, d)) ∨
        m.env.epoch = d.epoch ∧ ∃ r d', (([] : List Frame), call) = ([], .ok r, d') ∧
          r.message.length = n + m.reason.length := by
    rcases h with ⟨hne, hout⟩ | ⟨heq, r, d', hout, hlen⟩
    · exact .inl ⟨hne, by rw [hout]⟩
    · exact .inr ⟨heq, r, d', by rw [hout], hlen⟩
  unfold invalidateByKind noticeLength
  generalize m.kind.toNat = k at hkind
  rcases k with _ | _ | _ | _ | _ | k
  · refine hspoken ?_
    unfold invalidateState
    refine invalidateWith_message _ _ ?_
    rw [length_ascii, String.length_append, String.length_append]
    show 12 + _ + 12 = 24 + _
    omega
  · exact hspoken (invalidateWith_message (ascii "invalidated cache: ") 19 (by decide))
  · exact hspoken (invalidateWith_message (ascii "invalidated replica: ") 21 (by decide))
  · exact hspoken (invalidateWith_message (ascii "invalidated location: ") 22 (by decide))
  · exact hspoken (invalidateWith_message (ascii "invalidated worker boot: ") 25 (by decide))
  · omega

/-- The reader of an invalidation bounds its reason. -/
theorem reason_le {payload : Bytes} {m : InvalidateMsg}
    (h : deserializeInvalidate payload = .ok m) : m.reason.length ≤ 1 <<< 20 := by
  have hreason : Gives rdInvalidate fun m => m.reason.length ≤ 1 <<< 20 :=
    .step fun _ => .step fun _ => .step fun _ => .step fun _ =>
      .seq (ByteReader.string_gives _) fun _ hs => .pure hs
  exact hreason.runAll h

/-- What an invalidation of an unknown kind leaves for the answers. -/
theorem invalidateByKind_unknown {m : InvalidateMsg} (hkind : ¬ m.kind.toNat ≤ 4) :
    invalidateByKind w m d =
      ([respondMalformed "bad invalidation kind"], .error { error := .none }, d) := by
  unfold invalidateByKind
  generalize m.kind.toNat = k at hkind
  rcases k with _ | _ | _ | _ | _ | k
  iterate 5 exact absurd (by decide) hkind
  rfl

/-- **The answers to an invalidation.** -/
theorem readable_invalidate_iff (payload : Bytes) :
    (∀ a ∈ (invalidate w payload d).1, Readable .invalidate x a) ↔
      ∀ m, deserializeInvalidate payload = .ok m → m.kind.toNat ≤ 4 → m.env.epoch = d.epoch →
        noticeLength d m + m.reason.length ≤ 2 ^ 20 := by
  unfold invalidate
  cases hm : deserializeInvalidate payload with
  | error e =>
      refine iff_of_true ?_ nofun
      exact List.forall_mem_singleton.mpr (readable_malformed (by decide))
  | ok m =>
      have hshort := reason_le hm
      have hnotice := noticeLength_le d m
      simp only [Except.ok.injEq, forall_eq']
      by_cases hkind : m.kind.toNat ≤ 4
      · rcases invalidateByKind_spec (w := w) (d := d) m hkind with
          ⟨hne, hout⟩ | ⟨heq, r, d', hout, hlen⟩
        · rw [hout]
          refine iff_of_true ?_ fun _ heq => absurd heq hne
          exact List.forall_mem_singleton.mpr (readable_failure (by decide))
        · rw [hout]
          have hack : Readable .invalidate x (respondAck { message := r.message }) ↔ _ :=
            readable_ack_iff (by decide) (by rw [hlen]; omega)
          rw [hlen] at hack
          refine List.forall_mem_singleton.trans (hack.trans ?_)
          exact ⟨fun h _ _ => h, fun h => h hkind heq⟩
      · rw [invalidateByKind_unknown hkind]
        refine iff_of_true ?_ fun h => absurd h hkind
        refine List.forall_mem_cons.mpr ⟨readable_malformed (by decide), ?_⟩
        exact List.forall_mem_singleton.mpr (readable_failure (by decide))

/-- A query is answered with what a scan finds. -/
theorem query_onWire (h : d.IndexFits) (q : DirectoryQuery) :
    (valueOf (d.query (F := F) w.bucket q).1).onWire = scanOnWire F d q := by
  rw [query_answer h]
  rfl

/-- **The answers to a query.** -/
theorem readable_query_iff (h : d.IndexFits) (payload : Bytes) :
    (∀ a ∈ (query F w payload d).1, Readable .query x a) ↔
      ∀ q, deserializeQuery {} payload = .ok q → ResultFits d q := by
  unfold query
  cases hq : deserializeQuery {} payload with
  | error e =>
      refine iff_of_true ?_ fun q hok => by cases hok
      exact List.forall_mem_singleton.mpr (readable_malformed (by decide))
  | ok q =>
      simp only [Except.ok.injEq, forall_eq', query_onWire h q]
      exact List.forall_mem_singleton.trans (readable_result_iff d q x)

theorem readable_hello (payload : Bytes) (h : Handler) :
    ∀ a ∈ (hello payload h d).1, Readable .hello x a := by
  unfold hello
  cases deserializeHello {} payload with
  | error e => exact List.forall_mem_singleton.mpr (readable_malformed (by decide))
  | ok s =>
      simp only
      rcases hout : d.registerWorkerSession s with ⟨f | b, d'⟩
      · exact List.forall_mem_singleton.mpr
          (readable_failure (terse_guarded (congrArg Prod.fst hout)))
      · exact List.forall_mem_singleton.mpr (readable_epochReply _)

theorem readable_recover (payload : Bytes) :
    ∀ a ∈ (recover w payload d).1, Readable .recover x a := by
  unfold recover
  cases deserializePath payload with
  | error e => exact List.forall_mem_singleton.mpr (readable_malformed (by decide))
  | ok path =>
      simp only
      rcases hout : d.recover (w.fileAt path) with - | ⟨f | b, d'⟩
      · exact fun a ha => absurd ha List.not_mem_nil
      · exact List.forall_mem_singleton.mpr (readable_failure (terse_recover hout))
      · exact List.forall_mem_singleton.mpr
          ((readable_ack_iff (by decide) (by decide)).mpr (by decide))

/-- What the answers to a frame need: room behind the notice for the reason of an invalidation, and
    an answer to a query within the limits. -/
def AnswerFits (d : Directory) (frame : Frame) : Prop :=
  match frame.kind with
  | .invalidate =>
      ∀ m, deserializeInvalidate frame.payload = .ok m → m.kind.toNat ≤ 4 →
        m.env.epoch = d.epoch → noticeLength d m + m.reason.length ≤ 2 ^ 20
  | .query => ∀ q, deserializeQuery {} frame.payload = .ok q → ResultFits d q
  | _ => True

/-- Every other answer is readable. -/
theorem readable_others (frame : Frame) (h : Handler) (hinvalidate : frame.kind ≠ .invalidate)
    (hquery : frame.kind ≠ .query) : ∀ a ∈ (handle F w frame h d).1, Readable frame.kind x a := by
  obtain ⟨kind, payload⟩ := frame
  have hserve {α β : Type} {parsed : Deserialized α} {malformed : String}
      {call : α → Directory → Result β × Directory} {text : String} (hreq : Awaits kind)
      (hmalformed : (ascii malformed).length ≤ 1 <<< 20) (hdone : (ascii text).length ≤ 1 <<< 20)
      (hcall : ∀ m f, (call m d).1 = .error f → f.Terse) :
      ∀ a ∈ (serve parsed malformed call (fun _ => ascii text) d).1, Readable kind x a :=
    readable_serve hreq hmalformed (fun _ => hdone) hcall
  cases kind with
  | hello => exact readable_hello payload h
  | registerCache =>
      exact hserve (by decide) (by decide) (by decide) fun _ _ hf => terse_guarded hf
  | registerLocation =>
      exact hserve (by decide) (by decide) (by decide) fun _ _ hf => terse_guarded hf
  | registerReplica =>
      exact hserve (by decide) (by decide) (by decide) fun _ _ hf => terse_guarded hf
  | registerEntry =>
      exact hserve (by decide) (by decide) (by decide) fun _ _ => terse_registerEntry
  | updateHealth =>
      exact hserve (by decide) (by decide) (by decide) fun _ _ => terse_updateEvidence
  | updateFreshness =>
      exact hserve (by decide) (by decide) (by decide) fun _ _ => terse_updateEvidence
  | updateReachability =>
      exact hserve (by decide) (by decide) (by decide) fun _ _ => terse_updateEvidence
  | updateIntegrity =>
      exact hserve (by decide) (by decide) (by decide) fun _ _ => terse_updateEvidence
  | renewLease =>
      exact hserve (by decide) (by decide) (by decide) fun _ _ => terse_renewLease
  | invalidate => exact absurd rfl hinvalidate
  | tombstone =>
      exact hserve (by decide) (by decide) (by decide) fun _ _ hf => terse_guarded hf
  | query => exact absurd rfl hquery
  | save =>
      exact hserve (by decide) (by decide) (by decide) fun _ _ hf =>
        terse_save (d := d) (o := w.maps) hf
  | recover => exact readable_recover payload
  | _ => exact List.forall_mem_singleton.mpr (readable_malformed (by decide))

/-- **Every answer is readable exactly when the answers fit**: in every state of every run, for
    every frame, every arithmetic of scores and all that the environment decides. -/
theorem answers_readable_iff (F : Type) [WireDouble F] (ops : List Operation) (d : Directory)
    (w : Surroundings) (frame : Frame) (h : Handler) (x : QueryResult F64)
    (hd : Reached F ops d) :
    (∀ a ∈ (handle F w frame h d).1, Readable frame.kind x a) ↔ AnswerFits d frame := by
  obtain ⟨kind, payload⟩ := frame
  by_cases hinvalidate : kind = .invalidate
  · subst hinvalidate
    exact readable_invalidate_iff payload
  by_cases hquery : kind = .query
  · subst hquery
    exact readable_query_iff (indexFits_reached hd) payload
  · refine iff_of_true (readable_others _ h hinvalidate hquery) ?_
    unfold AnswerFits
    dsimp only
    split
    · contradiction
    · contradiction
    · trivial

/-! ## 6. An invalidation with a long reason -/

/-- The invalidation of cache 1. -/
def cacheInvalidation (reason : Bytes) : InvalidateMsg :=
  { kind := 1, target := 1, generation := 0, env := { epoch := ⟨1⟩ }, reason := reason }

def cacheInvalidationFrame (reason : Bytes) : Frame :=
  { kind := .invalidate, payload := serializeInvalidate (cacheInvalidation reason) }

theorem handle_cacheInvalidation {reason : Bytes} (hreason : reason.length ≤ 1 <<< 20)
    (hepoch : d.epoch = ⟨1⟩) (h : Handler) :
    handle F w (cacheInvalidationFrame reason) h d =
      ([respondAck { message := ascii "invalidated cache: " ++ reason }], h,
        (d.invalidateCache ⟨1⟩ { epoch := ⟨1⟩ } reason w.clk).2) := by
  have hread : deserializeInvalidate (serializeInvalidate (cacheInvalidation reason)) =
      .ok (cacheInvalidation reason) := (rdInvalidate_decodes hreason).runAll_ok ()
  have hcall : ∃ r d', d.invalidateCache ⟨1⟩ { epoch := ⟨1⟩ } reason w.clk = (.ok r, d') ∧
      r.message = ascii "invalidated cache: " ++ reason := by
    unfold invalidateCache invalidateWith
    rw [guarded_of_none (by simp [hepoch])]
    exact ⟨_, _, rfl, rfl⟩
  obtain ⟨r, d', hcall, hmessage⟩ := hcall
  have hkind : invalidateByKind w (cacheInvalidation reason) d = ([], .ok r, d') :=
    congrArg (Prod.mk []) hcall
  have hout : invalidate w (serializeInvalidate (cacheInvalidation reason)) d =
      ([respondAck { message := r.message }], d') := by
    unfold invalidate
    rw [hread]
    simp only [hkind, List.nil_append]
  rw [hcall, ← hmessage]
  show ((invalidate w (serializeInvalidate (cacheInvalidation reason)) d).1, h,
    (invalidate w (serializeInvalidate (cacheInvalidation reason)) d).2) = _
  rw [hout]

/-- As long as the reader of an invalidation takes it. -/
def longReason : Bytes := List.replicate (2 ^ 20) 120

theorem length_longReason : longReason.length = 2 ^ 20 := List.length_replicate

/-- **The counterexample**: the request is well formed and carried out, the record of the cache is
    invalidated, and the client reports that it failed. -/
theorem carried_out_and_unreadable :
    Reached Float registeredOnce afterRegistration ∧
      deserializeInvalidate (serializeInvalidate (cacheInvalidation longReason)) =
        .ok (cacheInvalidation longReason) ∧
      ∃ a d', handle Float someSurroundings (cacheInvalidationFrame longReason) {}
          afterRegistration = ([a], {}, d') ∧
        d'.records.map (·.lifecycle) = [.invalidated] ∧
        DcdClient.accepts .invalidate {} a = false ∧
        DcdClient.returns .invalidate {} a = false := by
  have hreason : longReason.length ≤ 1 <<< 20 := Nat.le_of_eq length_longReason
  have hlength : (ascii "invalidated cache: " ++ longReason).length = 19 + 2 ^ 20 := by
    rw [List.length_append, length_longReason, length_ascii]
    rfl
  have hawaits : Awaits .invalidate := by decide
  have hunreadable := unreadable_ack (x := {}) hawaits
    (m := ascii "invalidated cache: " ++ longReason) (by rw [hlength]; decide)
    (by rw [hlength]; decide)
  refine ⟨after_mem_visited _ _ _, (rdInvalidate_decodes hreason).runAll_ok (), _, _,
    handle_cacheInvalidation hreason (by decide +kernel) {}, ?_, hunreadable⟩
  unfold invalidateCache
  rw [invalidateWith_granted (by decide +kernel)]
  decide +kernel

/-- The query for the only record has one answer, and it is readable. -/
theorem answers_readable_anyCopy :
    (handle Float someSurroundings { kind := .query, payload := serializeQuery anyCopy } {}
        afterRegistration).1.length = 1 ∧
      ∀ a ∈ (handle Float someSurroundings { kind := .query, payload := serializeQuery anyCopy } {}
        afterRegistration).1, Readable .query {} a := by
  have hread : deserializeQuery {} (serializeQuery anyCopy) = .ok anyCopy :=
    (rdQuery_decodes {} ⟨by decide, by decide, by decide, by decide⟩).runAll_ok ()
  refine ⟨?_, (answers_readable_iff Float registeredOnce afterRegistration someSurroundings _ {} {}
    (after_mem_visited _ _ _)).mpr ?_⟩
  · simp only [handle, query, hread]
    rfl
  · intro q hq
    rw [show Frame.payload _ = serializeQuery anyCopy from rfl, hread] at hq
    cases hq
    exact ⟨by decide +kernel, by decide +kernel, by decide +kernel⟩

end CoordinatorServer

end CacheDirectory
