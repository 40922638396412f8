/-
  File:      CacheDirectory/Wire/Records.lean
  Subject:   RECORDS AND QUERY RESULTS ON THE WIRE.

  `rd_rec` reads every byte `wr_rec` writes and assigns all but four of them: whether a restore
  is required, and the locality, the cost class and the provenance of the estimate.

  * `rdRec_decodes` -- the record reader against its writer, for any object read into;
  * `recordOnWire` -- what arrives: those four fields are the ones of that object;
  * `rdQueryResult_decodes` -- a query result, whose candidates hold such records;
  * `wire_roundTrip_iff` -- a record comes back as it was sent exactly when the four fields have
    their defaults, and so does a query result when this holds of its candidates.
-/
import CacheDirectory.Model.Messages
import CacheDirectory.Recovery.RoundTrip

namespace CacheDirectory

open Library ByteReader Protocol

/-! ## 1. Records -/

theorem rdRecLease_decodes (p l : LeaseDescriptor) :
    Decodes True (rdRecLease p) (wrRecLease l) l := by
  unfold rdRecLease wrRecLease
  simp only [List.flatten_cons, List.flatten_nil]
  refine .step (rAuth_decodes _ _) <| .step (u64_decodes _) <| .step (u64_decodes _) <|
    .step (u64_decodes _) <| .step (u64_decodes _) <| .step (u64_decodes _) <|
    .step (u8_decodes _) <| .step (u8_decodes _) <| .step (u64_decodes _) <| .pure ?_
  simp only [flag_ne_zero, ofByte_toByte]

/-- A record as it arrives: beside what is not written, four fields of the estimate stay those
    of the object read into. -/
def recordOnWire (p r : DirectoryRecord) : DirectoryRecord :=
  { recordAsRead p r with
    estimate := { r.estimate with
      restoreRequired := p.estimate.restoreRequired
      locality := p.estimate.locality
      costClass := p.estimate.costClass
      provenance := p.estimate.provenance } }

/-- **The record reader against its writer.** -/
theorem rdRec_decodes (p r : DirectoryRecord) (hn : r.nameSpace.length < 2 ^ 64) :
    Decodes (r.nameSpace.length ≤ 1 <<< 20) (rdRec p) (wrRec r) (recordOnWire p r) := by
  unfold rdRec wrRec
  simp only [List.flatten_cons, List.flatten_nil]
  refine .step (u64_decodes _) <| .step (u64_decodes _) <| .step (u64_decodes _) <|
    .step (u8_decodes _) <| .last (string_decodes hn _) <| .step (u64_decodes _) <|
    .step (u64_decodes _) <| .step (u64_decodes _) <| .step (u64_decodes _) <|
    .step (u64_decodes _) <| .step (u64_decodes _) <| .step (u64_decodes _) <|
    .step (u64_decodes _) <| .step (u8_decodes _) <| .step (u64_decodes _) <|
    .step (u64_decodes _) <| .step (u8_decodes _) <| .step (u8_decodes _) <|
    .step (optional_decodes _ _ (digest_decodes _)) <| .step (u64_decodes _) <|
    .step (u64_decodes _) <| .step (u64_decodes _) <| .step (u64_decodes _) <|
    .step (u64_decodes _) <| .step (u8_decodes _) <| .step (u8_decodes _) <|
    .step (u8_decodes _) <| .step (u8_decodes _) <| .step (u8_decodes _) <|
    .step (optional_decodes _ _ (rdRecLease_decodes _ _)) <| .step (f64_decodes _) <|
    .step (f64_decodes _) <| .step (u64_decodes _) <| .step (u32_decodes _) <|
    .step (u8_decodes _) <| .step (u32_decodes _) <| .step (u8_decodes _) <|
    .step (u8_decodes _) <| .step (u8_decodes _) <| .step (u64_decodes _) <|
    .step (rAuth_decodes _ _) <| .step (u64_decodes _) <| .step (u8_decodes _) <|
    .step (u8_decodes _) <| .step (u64_decodes _) <| .step (u64_decodes _) <|
    .step (u64_decodes _) <| .step (digest_decodes _) <| .pure ?_
  simp only [flag_ne_zero, ofByte_toByte]
  rfl

/-- What the wire can carry of a record: the reader's bound on the namespace, and nothing stored
    in a field that is declared absent. -/
structure DirectoryRecord.Canonical (r : DirectoryRecord) : Prop where
  nameSpace : r.nameSpace.length ≤ 2 ^ 20
  contentDigest : r.contentDigestKnown = false → r.contentDigest = Digest.Sha256.zero
  lease : r.hasLease = false → r.lease = {}

/-- The four fields of the estimate that are read and not assigned have their defaults. -/
structure DirectoryRecord.EstimateDefaulted (r : DirectoryRecord) : Prop where
  restoreRequired : r.estimate.restoreRequired = false
  locality : r.estimate.locality = .unknown
  costClass : r.estimate.costClass = .unknown
  provenance : r.estimate.provenance = .unknown

theorem recordOnWire_eq_iff {r : DirectoryRecord} (h : r.Canonical) :
    recordOnWire {} r = r ↔ r.EstimateDefaulted := by
  constructor
  · intro heq
    have hest : (recordOnWire {} r).estimate = r.estimate := congrArg (·.estimate) heq
    exact ⟨(congrArg (·.restoreRequired) hest).symm, (congrArg (·.locality) hest).symm,
      (congrArg (·.costClass) hest).symm, (congrArg (·.provenance) hest).symm⟩
  · intro h
    obtain ⟨hrestore, hlocality, hcost, hprov⟩ := h
    have hest : { r.estimate with
        restoreRequired := false, locality := .unknown, costClass := .unknown,
        provenance := .unknown } = r.estimate := by
      rw [← hrestore, ← hlocality, ← hcost, ← hprov]
    unfold recordOnWire
    rw [recordAsRead_same h.contentDigest h.lease]
    simp only [hest]

/-- A record within the reader's bound always arrives. -/
theorem deserializeRecord_serialized {p r : DirectoryRecord}
    (h : r.nameSpace.length ≤ 2 ^ 20) :
    deserializeRecord p (serializeRecord r) = .ok (recordOnWire p r) :=
  ((rdRec_decodes p r (Nat.lt_of_le_of_lt h (by decide))).runAll ()).1 h

/-! ## 2. Query results -/

/-- **A counted loop against the list it was written from.** -/
theorem rdCounted_decodes {α β : Type} (limit : UInt32) {p : Reader α} {fits : β → Prop}
    {enc : β → Bytes} (val : β → α) {xs : List β} (hsize : xs.length < 2 ^ 32)
    (h : ∀ x ∈ xs, Decodes (fits x) p (enc x) (val x)) :
    Decodes (xs.length ≤ limit.toNat ∧ ∀ x ∈ xs, fits x) (rdCounted limit p)
      (ByteWriter.u32 (.ofNat xs.length) ++ xs.flatMap enc) (xs.map val) := by
  have hn : (UInt32.ofNat xs.length).toNat = xs.length := by
    rw [UInt32.toNat_ofNat']
    exact Nat.mod_eq_of_lt hsize
  have htest : xs.length ≤ limit.toNat ↔ decide (UInt32.ofNat xs.length > limit) = false := by
    rw [decide_eq_false_iff_not, gt_iff_lt, UInt32.lt_iff_toNat_lt, hn, Nat.not_lt]
  refine .step (u32_decodes _) (.check htest ?_)
  rw [hn]
  exact Decodes.times xs h

theorem rdFactor_decodes (f : RankingFactor F64) (h : f.note.length < 2 ^ 64) :
    Decodes (f.note.length ≤ 1 <<< 20) rdFactor (wrFactor f) f := by
  unfold rdFactor wrFactor
  simp only [List.flatten_cons, List.flatten_nil]
  refine .step (u8_decodes _) <| .step (f64_decodes _) <| .step (f64_decodes _) <|
    .step (f64_decodes _) <| .last (string_decodes h _) <| .pure ?_
  simp only [ofByte_toByte]

theorem rdRejection_decodes (rj : Rejection) :
    Decodes True rdRejection (wrRejection rj) rj := by
  unfold rdRejection wrRejection
  simp only [List.flatten_cons, List.flatten_nil]
  refine .step (u64_decodes _) <| .step (u8_decodes _) <| .step (u64_decodes _) <|
    .step (u64_decodes _) <| .step (u64_decodes _) <| .step (u64_decodes _) <| .pure ?_
  simp only [ofByte_toByte]

/-- What the wire can carry of a candidate. -/
structure Candidate.Canonical (c : Candidate F64) : Prop where
  record : c.record.Canonical
  factors : c.factors.length ≤ 1024
  notes : ∀ f ∈ c.factors, f.note.length ≤ 2 ^ 20

def candidateOnWire (c : Candidate F64) : Candidate F64 :=
  { c with record := recordOnWire {} c.record }

/-- A candidate within the limits on its factors is refused for its namespace alone. -/
theorem rdCandidate_fits {c : Candidate F64} (hname : c.record.nameSpace.length < 2 ^ 64)
    (hsize : c.factors.length ≤ 1024) (hnotes : ∀ f ∈ c.factors, f.note.length ≤ 2 ^ 20) :
    Decodes (c.record.nameSpace.length ≤ 1 <<< 20) rdCandidate (wrCandidate c)
      (candidateOnWire c) := by
  have hfactors : Decodes True (rdCounted 1024 rdFactor)
      (ByteWriter.u32 (.ofNat c.factors.length) ++ c.factors.flatMap wrFactor) c.factors := by
    have hall := rdCounted_decodes 1024 id
      (Nat.lt_of_le_of_lt hsize (by decide))
      fun f hf => rdFactor_decodes f (Nat.lt_of_le_of_lt (hnotes f hf) (by decide))
    rw [List.map_id] at hall
    exact hall.of_iff (iff_true_intro ⟨hsize, hnotes⟩)
  unfold rdCandidate wrCandidate
  simp only [List.flatten_cons, List.flatten_nil]
  refine .last (rdRec_decodes {} c.record hname) <| .step (f64_decodes _) <|
    .step (u8_decodes _) ?_
  rw [← List.append_assoc]
  refine .step hfactors <| .pure ?_
  simp only [flag_ne_zero]
  rfl

theorem rdCandidate_decodes {c : Candidate F64} (h : c.Canonical) :
    Decodes True rdCandidate (wrCandidate c) (candidateOnWire c) := by
  have hname := h.record.nameSpace
  exact (rdCandidate_fits (Nat.lt_of_le_of_lt hname (by decide)) h.factors h.notes).of_iff
    (iff_true_intro hname)

/-- What the wire can carry of a query result: the limits of the reader on its counts. -/
structure QueryResult.Canonical (qr : QueryResult F64) : Prop where
  candidates : qr.candidates.length ≤ 1000000
  each : ∀ c ∈ qr.candidates, c.Canonical
  rejections : qr.rejections.length ≤ 1000000

/-- A query result as it arrives behind what `x` holds. -/
def queryResultOnWire (x qr : QueryResult F64) : QueryResult F64 :=
  { qr with
    candidates := x.candidates ++ qr.candidates.map candidateOnWire
    rejections := x.rejections ++ qr.rejections
    explanation := x.explanation
    summary := x.summary }

/-- **The query result reader against its writer**: the counts and what the candidates need. -/
theorem rdQueryResult_fits (x : QueryResult F64) {qr : QueryResult F64}
    {fits : Candidate F64 → Prop} (hcands : qr.candidates.length < 2 ^ 32)
    (hrejs : qr.rejections.length < 2 ^ 32)
    (hall : ∀ c ∈ qr.candidates,
      Decodes (fits c) rdCandidate (wrCandidate c) (candidateOnWire c)) :
    Decodes ((qr.candidates.length ≤ 1000000 ∧ ∀ c ∈ qr.candidates, fits c) ∧
        qr.rejections.length ≤ 1000000) (rdQueryResult x) (serializeQueryResult qr)
      (queryResultOnWire x qr) := by
  have hcandidates := rdCounted_decodes 1000000 candidateOnWire hcands hall
  have hrejections := (rdCounted_decodes 1000000 id hrejs
    fun rj _ => rdRejection_decodes rj).of_iff (and_iff_left fun _ _ => trivial)
  unfold rdQueryResult serializeQueryResult
  simp only [List.flatten_cons, List.flatten_nil]
  refine .step (u64_decodes _) <| .step (u8_decodes _) <| .step (u32_decodes _) <|
    .step (u32_decodes _) ?_
  rw [← List.append_assoc]
  refine .seq hcandidates ?_
  rw [← List.append_assoc]
  refine .last hrejections <| .pure ?_
  simp only [ofByte_toByte, List.map_id]
  rfl

theorem rdQueryResult_decodes (x : QueryResult F64) {qr : QueryResult F64}
    (h : qr.Canonical) :
    Decodes True (rdQueryResult x) (serializeQueryResult qr) (queryResultOnWire x qr) :=
  (rdQueryResult_fits x (Nat.lt_of_le_of_lt h.candidates (by decide))
    (Nat.lt_of_le_of_lt h.rejections (by decide))
    fun c hc => rdCandidate_decodes (h.each c hc)).of_iff
      (iff_true_intro ⟨⟨h.candidates, fun _ _ => trivial⟩, h.rejections⟩)

/-- A query result within the limits always arrives. -/
theorem deserializeQueryResult_serialized {x qr : QueryResult F64} (h : qr.Canonical) :
    deserializeQueryResult x (serializeQueryResult qr) = .ok (queryResultOnWire x qr) :=
  ((rdQueryResult_decodes x h).runAll ()).1 trivial

/-! ## 3. The round trip -/

theorem candidateOnWire_eq_iff {c : Candidate F64} (h : c.Canonical) :
    candidateOnWire c = c ↔ c.record.EstimateDefaulted := by
  rw [← recordOnWire_eq_iff h.record]
  constructor
  · intro heq
    exact congrArg (·.record) heq
  · intro heq
    unfold candidateOnWire
    rw [heq]

theorem queryResultOnWire_eq_iff {qr : QueryResult F64} (h : qr.Canonical) :
    queryResultOnWire {} qr = { qr with explanation := [], summary := [] } ↔
      ∀ c ∈ qr.candidates, c.record.EstimateDefaulted := by
  have hmap : qr.candidates.map candidateOnWire = qr.candidates ↔
      ∀ c ∈ qr.candidates, candidateOnWire c = c := by
    have hid := List.map_inj_left (l := qr.candidates) (f := candidateOnWire) (g := id)
    rw [List.map_id] at hid
    exact hid
  have hcandidates : queryResultOnWire {} qr = { qr with explanation := [], summary := [] } ↔
      qr.candidates.map candidateOnWire = qr.candidates := by
    constructor
    · intro heq
      exact congrArg (·.candidates) heq
    · intro heq
      unfold queryResultOnWire
      simp only [heq, List.nil_append]
  rw [hcandidates, hmap]
  exact forall₂_congr fun c hc => candidateOnWire_eq_iff (h.each c hc)

/-- **The round trip**: a record, and a query result, come back as they were sent exactly when
    the four fields of every estimate that the reader drops have their defaults. -/
theorem wire_roundTrip_iff (r : DirectoryRecord) (qr : QueryResult F64) :
    (r.Canonical →
        (deserializeRecord {} (serializeRecord r) = .ok r ↔ r.EstimateDefaulted)) ∧
      (qr.Canonical →
        (deserializeQueryResult {} (serializeQueryResult qr) =
            .ok { qr with explanation := [], summary := [] } ↔
          ∀ c ∈ qr.candidates, c.record.EstimateDefaulted)) := by
  constructor
  · intro h
    rw [deserializeRecord_serialized h.nameSpace, Except.ok.injEq, recordOnWire_eq_iff h]
  · intro h
    rw [deserializeQueryResult_serialized h, Except.ok.injEq, queryResultOnWire_eq_iff h]

/-- The record of one copy, everything under id 1. -/
def sentRecord : DirectoryRecord := attachedRecord ⟨1⟩ ⟨1⟩ ⟨1⟩ ⟨1⟩ ⟨1⟩ ⟨1⟩ ⟨1⟩

/-- The same copy, one that has to be restored before it is used. -/
def restoredCopy : DirectoryRecord := { sentRecord with estimate := { restoreRequired := true } }

/-- **The counterexample**: the restore requirement is lost on the way. -/
theorem restore_requirement_lost :
    restoredCopy.Canonical ∧
      ∃ r, deserializeRecord {} (serializeRecord restoredCopy) = .ok r ∧
        r.estimate.restoreRequired ≠ restoredCopy.estimate.restoreRequired :=
  ⟨⟨by decide, fun _ => rfl, fun _ => rfl⟩, _, deserializeRecord_serialized (by decide),
    by decide⟩

/-- The answer with that one copy in it. -/
def sentResult : QueryResult F64 :=
  { outcome := .foundRemote, candidates := [{ record := sentRecord, factors := [], score := {} }] }

theorem wire_roundTrip_sent :
    deserializeRecord {} (serializeRecord sentRecord) = .ok sentRecord ∧
      deserializeQueryResult {} (serializeQueryResult sentResult) = .ok sentResult := by
  have hrecord : sentRecord.Canonical := ⟨by decide, fun _ => rfl, fun _ => rfl⟩
  have hdefault : sentRecord.EstimateDefaulted := ⟨rfl, rfl, rfl, rfl⟩
  have hboth := wire_roundTrip_iff sentRecord sentResult
  refine ⟨(hboth.1 hrecord).mpr hdefault,
    (hboth.2 ⟨by decide, fun c hc => ?_, by decide⟩).mpr fun c hc => ?_⟩
  · rw [List.mem_singleton.mp hc]
    exact ⟨hrecord, by decide, by simp⟩
  · rw [List.mem_singleton.mp hc]
    exact hdefault

end CacheDirectory
