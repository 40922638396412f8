/-
  File:      CacheDirectory/Wire/Reuse.lean
  Subject:   DECODING INTO AN OBJECT THAT IS NOT FRESH.

  A deserializer takes the object it fills by reference. Whether a payload is accepted never
  depends on that object; what is left in it does, in four of the eight: a list is appended to, a
  digest is copied only when flagged, a lease is read only when flagged and its own flag never
  taken back, four fields of an estimate are read and dropped.

  * `deserialize..._into` -- what a payload leaves in an object, from what it leaves in a fresh one;
  * `Independent` -- two objects come out alike;
  * `recordFlags`, `digestFlag` -- the flags in a payload, read off its bytes alone;
  * `decoding_independent_iff` -- for which payloads and objects decoding is independent.
-/
import CacheDirectory.Wire.Messages

namespace CacheDirectory

open Library ByteReader Protocol

/-! ## 1. Readers that keep something -/

/-- What is not read stays that of the object. -/
theorem optional_beside {α : Type} {p q : Reader α} (b : Bool) (x y : α) (h : Beside Eq p q) :
    Beside (fun a' a => a' = if b then a else x) (optional b p x) (optional b q y) := by
  cases b with
  | false => exact .pure rfl
  | true => exact h

/-- **The record reader** leaves what a record leaves that was written from a fresh object. -/
theorem rdRec_into (x : DirectoryRecord) :
    Beside (fun r' r => r' = recordOnWire x r) (rdRec x) (rdRec {}) := by
  unfold rdRec
  repeat refine .same fun _ => ?_
  refine .seq (optional_beside _ _ _ (.refl _)) fun content' content hcontent => ?_
  repeat refine .same fun _ => ?_
  refine .seq (optional_beside _ _ _ (.refl _)) fun lease' lease hlease => ?_
  repeat refine .same fun _ => ?_
  refine .pure ?_
  rw [hcontent, hlease]
  simp only [recordOnWire, recordAsRead, Bool.or_false]

theorem rLoc_into (x : LocationDescriptor) :
    Beside (fun l' l => l' = locationAsRead x l) (rLoc x) (rLoc {}) := by
  unfold rLoc
  repeat refine .same fun _ => ?_
  refine .seq (optional_beside _ _ _ (.refl _)) fun content' content hcontent => ?_
  repeat refine .same fun _ => ?_
  refine .pure ?_
  rw [hcontent]
  rfl

theorem rdQuery_into (x : DirectoryQuery) :
    Beside (fun q' q => q' = queryOnWire x q) (rdQuery x) (rdQuery {}) := by
  unfold rdQuery
  repeat refine .same fun _ => ?_
  refine .seq (optional_beside _ _ _ (.refl _)) fun content' content hcontent => ?_
  repeat refine .same fun _ => ?_
  refine .pure ?_
  rw [hcontent]
  rfl

/-- A query result as it is left in `x`. -/
def resultInto (x qr : QueryResult F64) : QueryResult F64 :=
  { qr with
    candidates := x.candidates ++ qr.candidates
    rejections := x.rejections ++ qr.rejections
    explanation := x.explanation
    summary := x.summary }

theorem rdQueryResult_into (x : QueryResult F64) :
    Beside (fun qr' qr => qr' = resultInto x qr) (rdQueryResult x) (rdQueryResult {}) := by
  unfold rdQueryResult
  repeat refine .same fun _ => ?_
  exact .pure rfl

/-! ## 2. Deserializers -/

/-- Decoding the payload into the two objects: both calls fail, or both succeed and leave the
    same. -/
def Independent {α : Type} (deserialize : α → Bytes → Deserialized α) (payload : Bytes)
    (x₁ x₂ : α) : Prop :=
  (∃ f₁ f₂, deserialize x₁ payload = .error f₁ ∧ deserialize x₂ payload = .error f₂) ∨
    ∃ y, deserialize x₁ payload = .ok y ∧ deserialize x₂ payload = .ok y

/-- Some object, and then every one, takes the payload. -/
def WellFormed {α : Type} (deserialize : α → Bytes → Deserialized α) (payload : Bytes) : Prop :=
  ∃ x y, deserialize x payload = .ok y

section Deserializers

variable {α : Type} {deserialize : α → Bytes → Deserialized α} {into : α → α → α} {fresh : α}

theorem independent_of_constant (h : ∀ x, deserialize x = deserialize fresh) (payload : Bytes)
    (x₁ x₂ : α) : Independent deserialize payload x₁ x₂ := by
  unfold Independent
  rw [h x₁, h x₂]
  cases deserialize fresh payload with
  | error f => exact .inl ⟨f, f, rfl, rfl⟩
  | ok y => exact .inr ⟨y, rfl, rfl⟩

/-- **Where a deserializer leaves an image of what it leaves in a fresh object**, it is independent
    of two objects exactly when these images agree. -/
theorem independent_iff
    (h : ∀ x payload, deserialize x payload = (deserialize fresh payload).map (into x))
    {payload : Bytes} {x₁ x₂ : α} {Agree : Prop}
    (hagree : ∀ y, deserialize fresh payload = .ok y → (into x₁ y = into x₂ y ↔ Agree)) :
    Independent deserialize payload x₁ x₂ ↔ (WellFormed deserialize payload → Agree) := by
  unfold Independent
  rw [h x₁, h x₂]
  cases hfresh : deserialize fresh payload with
  | error f =>
      refine iff_of_true (.inl ⟨f, f, rfl, rfl⟩) ?_
      rintro ⟨x, y, hy⟩
      rw [h x, hfresh] at hy
      cases hy
  | ok y =>
      have hwell : WellFormed deserialize payload := ⟨fresh, y, hfresh⟩
      rw [imp_iff_right hwell, ← hagree y hfresh]
      constructor
      · rintro (⟨f, _, hf, _⟩ | ⟨z, hz₁, hz₂⟩)
        · cases hf
        · exact (Except.ok.inj hz₁).trans (Except.ok.inj hz₂).symm
      · intro heq
        exact .inr ⟨into x₁ y, rfl, congrArg Except.ok heq.symm⟩

end Deserializers

theorem deserializeRecord_into (x : DirectoryRecord) (payload : Bytes) :
    deserializeRecord x payload = (deserializeRecord {} payload).map (recordOnWire x) :=
  (rdRec_into x).runAll_map () payload

theorem deserializeLocation_into (x : LocationDescriptor) (payload : Bytes) :
    deserializeLocation x payload = (deserializeLocation {} payload).map (locationAsRead x) :=
  (rLoc_into x).runAll_map () payload

theorem deserializeQuery_into (x : DirectoryQuery) (payload : Bytes) :
    deserializeQuery x payload = (deserializeQuery {} payload).map (queryOnWire x) :=
  (rdQuery_into x).runAll_map () payload

theorem deserializeQueryResult_into (x : QueryResult F64) (payload : Bytes) :
    deserializeQueryResult x payload = (deserializeQueryResult {} payload).map (resultInto x) :=
  (rdQueryResult_into x).runAll_map () payload

/-! ## 3. The flags in a payload -/

/-- The flags of a record's payload, read off its front: is there a content digest, a lease? -/
def recordFlags : Reader (Bool × Bool) := do
  let _ ← Parser.times 3 u64
  let _ ← u8
  let _ ← string (1 <<< 20)
  let _ ← Parser.times 8 u64
  let _ ← u8
  let _ ← Parser.times 2 u64
  let _ ← u8
  let dk ← u8
  let _ ← optional (dk != 0) digest Digest.Sha256.zero
  let _ ← Parser.times 5 u64
  let _ ← Parser.times 4 u8
  let lle ← u8
  pure (dk != 0, lle != 0)

/-- The same of a location's: is there a content digest? -/
def locationFlag : Reader Bool := do
  let _ ← Parser.times 5 u64
  let _ ← u8
  let _ ← Parser.times 2 u64
  let _ ← string (1 <<< 20)
  let _ ← string (1 <<< 24)
  let _ ← Parser.times 2 u64
  let _ ← u8
  let dk ← u8
  pure (dk != 0)

/-- The same of a query's. -/
def queryFlag : Reader Bool := do
  let _ ← u64
  let _ ← u8
  let _ ← u64
  let _ ← u8
  let _ ← u64
  let _ ← Parser.times 2 u8
  let _ ← string (1 <<< 20)
  let dc ← u8
  pure (dc != 0)

/-- What the front of a payload says; nothing when it is too short for it. -/
def announced {α : Type} (front : Reader α) (payload : Bytes) : Option α :=
  match front.raw ⟨payload, 0⟩ with
  | .ok (a, _) => some a
  | .error _ => none

/-- A payload that is accepted says at its front what the reader goes by. -/
theorem announced_of_begins {α β : Type} {R : α → β → Prop} {read : Reader α} {front : Reader β}
    (h : Begins R read front) {payload : Bytes} {a : α} (ha : read.runAll () payload = .ok a) :
    ∃ b, announced front payload = some b ∧ R a b := by
  obtain ⟨c, hc⟩ := Parser.runAll_ok ha
  obtain ⟨b, c', hb, hR⟩ := h _ a c (Nat.zero_le _) hc
  refine ⟨b, ?_, hR⟩
  unfold announced
  rw [hb]

theorem rdRec_begins : Begins (fun r b => (r.contentDigestKnown, r.hasLease) = b) (rdRec {})
    recordFlags := by
  unfold rdRec recordFlags
  refine .times_succ fun _ => .times_succ fun _ => .times_succ fun _ => .times_zero ?_
  refine .same fun _ => .same fun _ => ?_
  repeat refine .times_succ fun _ => ?_
  refine .times_zero <| .same fun _ => .times_succ fun _ => .times_succ fun _ => .times_zero ?_
  refine .same fun _ => .same fun _ => .same fun _ => ?_
  repeat refine .times_succ fun _ => ?_
  refine .same fun lle => .decided ?_
  -- what is read behind the lease flag leaves both flags
  repeat refine Gives.step fun _ => ?_
  refine .pure ?_
  simp only [Bool.or_false]

theorem rLoc_begins : Begins (fun l b => l.contentDigestKnown = b) (rLoc {}) locationFlag := by
  unfold rLoc locationFlag
  repeat refine .times_succ fun _ => ?_
  refine .times_zero <| .same fun _ => .times_succ fun _ => .times_succ fun _ => .times_zero ?_
  refine .same fun _ => .same fun _ => .times_succ fun _ => .times_succ fun _ => .times_zero ?_
  refine .same fun _ => .same fun _ => .decided ?_
  repeat refine Gives.step fun _ => ?_
  exact .pure rfl

theorem rdQuery_begins : Begins (fun q b => q.requireContentDigest = b) (rdQuery {})
    queryFlag := by
  unfold rdQuery queryFlag
  refine .same fun _ => .same fun _ => .same fun _ => .same fun _ => .same fun _ => ?_
  refine .times_succ fun _ => .times_succ fun _ => .times_zero ?_
  refine .same fun _ => .same fun _ => .decided ?_
  repeat refine Gives.step fun _ => ?_
  exact .pure rfl

/-! ## 4. Exactly when the object does not matter -/

/-- Two records agree in what a payload with these flags leaves of them. -/
structure RecordsAgree (flags : Bool × Bool) (x₁ x₂ : DirectoryRecord) : Prop where
  restoreRequired : x₁.estimate.restoreRequired = x₂.estimate.restoreRequired
  locality : x₁.estimate.locality = x₂.estimate.locality
  costClass : x₁.estimate.costClass = x₂.estimate.costClass
  provenance : x₁.estimate.provenance = x₂.estimate.provenance
  digest : flags.1 = true ∨ x₁.contentDigest = x₂.contentDigest
  lease : flags.2 = true ∨ (x₁.lease = x₂.lease ∧ x₁.hasLease = x₂.hasLease)

/-- The same of two queries: their domain lists are only appended to. -/
structure QueriesAgree (flag : Bool) (x₁ x₂ : DirectoryQuery) : Prop where
  allowedDomains : x₁.allowedDomains = x₂.allowedDomains
  preferredDomains : x₁.preferredDomains = x₂.preferredDomains
  digest : flag = true ∨ x₁.contentDigest = x₂.contentDigest

/-- The same of two query results. -/
structure ResultsAgree (x₁ x₂ : QueryResult F64) : Prop where
  candidates : x₁.candidates = x₂.candidates
  rejections : x₁.rejections = x₂.rejections
  explanation : x₁.explanation = x₂.explanation
  summary : x₁.summary = x₂.summary

section Agree

/-- What is copied only when flagged agrees when flagged, or when it agreed before. -/
theorem flagged_eq_iff {α : Type} {b : Bool} {y x₁ x₂ : α} :
    (if b then y else x₁) = (if b then y else x₂) ↔ b = true ∨ x₁ = x₂ := by
  cases b with
  | false => simp
  | true => simp

theorem recordsAgree_iff {x₁ x₂ y : DirectoryRecord} :
    recordOnWire x₁ y = recordOnWire x₂ y ↔
      RecordsAgree (y.contentDigestKnown, y.hasLease) x₁ x₂ := by
  constructor
  · intro h
    have hdigest := congrArg (·.contentDigest) h
    have hlease := congrArg (·.lease) h
    have hhas := congrArg (·.hasLease) h
    refine ⟨congrArg (·.estimate.restoreRequired) h, congrArg (·.estimate.locality) h,
      congrArg (·.estimate.costClass) h, congrArg (·.estimate.provenance) h,
      flagged_eq_iff.mp hdigest, ?_⟩
    rcases flagged_eq_iff.mp hlease with hflag | hsame
    · exact .inl hflag
    · cases hflag : y.hasLease with
      | true => exact .inl rfl
      | false =>
          simp only [recordOnWire, recordAsRead, hflag, Bool.false_or] at hhas
          exact .inr ⟨hsame, hhas⟩
  · intro h
    have hdigest := flagged_eq_iff (y := y.contentDigest).mpr h.digest
    have hlease := flagged_eq_iff (y := y.lease).mpr (h.lease.imp_right (·.1))
    have hhas : (y.hasLease || x₁.hasLease) = (y.hasLease || x₂.hasLease) := by
      rcases h.lease with hflag | hsame
      · simp only [show y.hasLease = true from hflag, Bool.true_or]
      · rw [hsame.2]
    simp only [recordOnWire, recordAsRead, hdigest, hlease, hhas, h.restoreRequired, h.locality,
      h.costClass, h.provenance]

theorem locationsAgree_iff {x₁ x₂ y : LocationDescriptor} :
    locationAsRead x₁ y = locationAsRead x₂ y ↔
      y.contentDigestKnown = true ∨ x₁.contentDigest = x₂.contentDigest := by
  rw [← flagged_eq_iff (y := y.contentDigest)]
  constructor
  · intro h
    exact congrArg (·.contentDigest) h
  · intro h
    simp only [locationAsRead, h]

theorem queriesAgree_iff {x₁ x₂ y : DirectoryQuery} :
    queryOnWire x₁ y = queryOnWire x₂ y ↔ QueriesAgree y.requireContentDigest x₁ x₂ := by
  constructor
  · intro h
    exact ⟨List.append_left_inj _ |>.mp (congrArg (·.allowedDomains) h),
      List.append_left_inj _ |>.mp (congrArg (·.preferredDomains) h),
      flagged_eq_iff.mp (congrArg (·.contentDigest) h)⟩
  · intro h
    have hdigest := flagged_eq_iff (y := y.contentDigest).mpr h.digest
    simp only [queryOnWire, hdigest, h.allowedDomains, h.preferredDomains]

theorem resultsAgree_iff {x₁ x₂ y : QueryResult F64} :
    resultInto x₁ y = resultInto x₂ y ↔ ResultsAgree x₁ x₂ := by
  constructor
  · intro h
    exact ⟨List.append_left_inj _ |>.mp (congrArg (·.candidates) h),
      List.append_left_inj _ |>.mp (congrArg (·.rejections) h),
      congrArg (·.explanation) h, congrArg (·.summary) h⟩
  · intro h
    simp only [resultInto, h.candidates, h.rejections, h.explanation, h.summary]

/-- Where the front of an accepted payload gives what the images go by, it decides. -/
theorem announced_iff {α β : Type} {R : α → β → Prop} {read : Reader α} {front : Reader β}
    (h : Begins R read front) {payload : Bytes} {y : α} (hy : read.runAll () payload = .ok y)
    {Same : Prop} {Agree : β → Prop} (hsame : ∀ b, R y b → (Same ↔ Agree b)) :
    Same ↔ ∀ b, announced front payload = some b → Agree b := by
  obtain ⟨b, hb, hR⟩ := announced_of_begins h hy
  rw [hsame b hR]
  constructor
  · intro hagree b' hb'
    rw [hb] at hb'
    cases hb'
    exact hagree
  · intro hall
    exact hall b hb

end Agree

/-- **Decoding is independent of the object decoded into** for caches, replicas, tombstones and
    sessions; for the other messages exactly when the payload is refused, whatever the object, or
    the two objects agree in what the payload leaves of them. -/
theorem decoding_independent_iff (payload : Bytes) :
    (∀ x₁ x₂, Independent deserializeCache payload x₁ x₂) ∧
      (∀ x₁ x₂, Independent deserializeReplica payload x₁ x₂) ∧
      (∀ x₁ x₂, Independent deserializeTombstone payload x₁ x₂) ∧
      (∀ x₁ x₂, Independent deserializeHello payload x₁ x₂) ∧
      (∀ x₁ x₂, Independent deserializeRecord payload x₁ x₂ ↔
        (WellFormed deserializeRecord payload →
          ∀ flags, announced recordFlags payload = some flags → RecordsAgree flags x₁ x₂)) ∧
      (∀ x₁ x₂, Independent deserializeLocation payload x₁ x₂ ↔
        (WellFormed deserializeLocation payload →
          ∀ flag, announced locationFlag payload = some flag →
            flag = true ∨ x₁.contentDigest = x₂.contentDigest)) ∧
      (∀ x₁ x₂, Independent deserializeQuery payload x₁ x₂ ↔
        (WellFormed deserializeQuery payload →
          ∀ flag, announced queryFlag payload = some flag → QueriesAgree flag x₁ x₂)) ∧
      ∀ x₁ x₂, Independent deserializeQueryResult payload x₁ x₂ ↔
        (WellFormed deserializeQueryResult payload → ResultsAgree x₁ x₂) := by
  -- a reader that assigns every field is the same reader for every object
  refine ⟨@independent_of_constant _ _ {} (fun _ => rfl) payload,
    @independent_of_constant _ _ {} (fun _ => rfl) payload,
    @independent_of_constant _ _ {} (fun _ => rfl) payload,
    @independent_of_constant _ _ {} (fun _ => rfl) payload,
    fun x₁ x₂ => ?record, fun x₁ x₂ => ?location, fun x₁ x₂ => ?query, fun x₁ x₂ => ?result⟩
  case record =>
    refine independent_iff deserializeRecord_into fun y hy => announced_iff rdRec_begins hy ?_
    rintro _ rfl
    exact recordsAgree_iff
  case location =>
    refine independent_iff deserializeLocation_into fun y hy => announced_iff rLoc_begins hy ?_
    rintro _ rfl
    exact locationsAgree_iff
  case query =>
    refine independent_iff deserializeQuery_into fun y hy => announced_iff rdQuery_begins hy ?_
    rintro _ rfl
    exact queriesAgree_iff
  case result => exact independent_iff deserializeQueryResult_into fun y _ => resultsAgree_iff

/-! ## 5. An object used twice -/

/-- A query for one domain, and the object a client has decoded one for another domain into. -/
def domainQuery (domain : MemoryDomain) : DirectoryQuery := { allowedDomains := [domain] }

/-- A query result that holds one rejection. -/
def heldResult : QueryResult F64 :=
  { rejections := [⟨⟨1⟩, .corrupt, ⟨1⟩, ⟨1⟩, ⟨1⟩, ⟨1⟩⟩] }

/-- A record with a lease and a content digest. -/
def leasedRecord : DirectoryRecord :=
  { contentDigest := Digest.sha256 [], contentDigestKnown := true, hasLease := true
    estimate := { restoreRequired := true } }

/-- **The counterexample**: a record without a lease decoded over one with a lease has that lease
    and its digest; a query for one domain decoded over another asks for both; an empty query
    result decoded over another keeps its rejection. -/
theorem stale_object_shows :
    ¬ Independent deserializeRecord (serializeRecord {}) {} leasedRecord ∧
      (∃ r, deserializeRecord leasedRecord (serializeRecord {}) = .ok r ∧ r.hasLease = true ∧
        r.contentDigest = Digest.sha256 [] ∧ r.estimate.restoreRequired = true) ∧
      (∃ q, deserializeQuery (domainQuery .cudaDevice) (serializeQuery (domainQuery .hostMemory)) =
        .ok q ∧ q.allowedDomains = [.cudaDevice, .hostMemory]) ∧
      ∃ qr, deserializeQueryResult heldResult (serializeQueryResult {}) = .ok qr ∧
        qr.rejections.length = 1 := by
  have hrecord (x : DirectoryRecord) : deserializeRecord x (serializeRecord {}) =
      .ok (recordOnWire x {}) := deserializeRecord_serialized (by decide)
  have hquery := (rdQuery_decodes (domainQuery .cudaDevice) (q := domainQuery .hostMemory)
    ⟨by decide, by decide, by decide, by decide⟩).runAll_ok ()
  have hempty : QueryResult.Canonical {} :=
    ⟨by decide, fun _ hc => absurd hc List.not_mem_nil, by decide⟩
  have hresult : deserializeQueryResult heldResult (serializeQueryResult {}) = _ :=
    deserializeQueryResult_serialized hempty
  refine ⟨?_, ⟨_, hrecord leasedRecord, rfl, rfl, rfl⟩, ⟨_, hquery, rfl⟩, ⟨_, hresult, rfl⟩⟩
  rintro (⟨f, _, hf, _⟩ | ⟨y, hy₁, hy₂⟩)
  · rw [hrecord] at hf
    cases hf
  · rw [hrecord] at hy₁ hy₂
    have hsame : false = true :=
      congrArg (·.hasLease) ((Except.ok.inj hy₁).trans (Except.ok.inj hy₂).symm)
    cases hsame

/-- An object with the same domains and digest is as good as a fresh one. -/
theorem decoding_independent_sameDomains :
    Independent deserializeQuery (serializeQuery (domainQuery .hostMemory)) { minReplicaCount := 3 }
      {} := by
  obtain ⟨_, _, _, _, _, _, hquery, _⟩ :=
    decoding_independent_iff (serializeQuery (domainQuery .hostMemory))
  exact (hquery _ _).mpr fun _ _ _ => ⟨rfl, rfl, .inr rfl⟩

end CacheDirectory
