/-
  File:      CacheDirectory/Recovery/RoundTrip.lean
  Subject:   EVERY READER AGAINST ITS WRITER, AND THE SNAPSHOT AS A WHOLE.

  One lemma for each of the nine writer and reader pairs, walked field by field, for any prior
  object. They add up to `parseSnapshot_saved`: the bytes of a snapshot are parsed back into
  exactly what was written when counts and strings are within the reader's limits, and refused
  when they are not.
-/
import CacheDirectory.Recovery.Validation

namespace CacheDirectory

open Library ByteReader

/-! ## 1. The entities -/

theorem rAuth_decodes (p a : AuthorityEnvelope) : Decodes True (rAuth p) (wAuth a) a := by
  unfold rAuth wAuth
  simp only [List.flatten_cons, List.flatten_nil]
  exact .step (u64_decodes _) <| .step (u64_decodes _) <| .step (u64_decodes _) <|
    .step (u64_decodes _) <| .pure rfl

theorem rEst_decodes (p e : AccessEstimate) : Decodes True (rEst p) (wEst e) e := by
  unfold rEst wEst
  simp only [List.flatten_cons, List.flatten_nil]
  refine .step (f64_decodes _) <| .step (f64_decodes _) <| .step (u64_decodes _) <|
    .step (u32_decodes _) <| .step (u8_decodes _) <| .step (u32_decodes _) <|
    .step (u8_decodes _) <| .step (u8_decodes _) <| .step (u8_decodes _) <| .pure ?_
  simp only [flag_ne_zero, ofByte_toByte]

theorem rLease_decodes (p l : LeaseDescriptor) : Decodes True (rLease p) (wLease l) l := by
  unfold rLease wLease
  simp only [List.flatten_cons, List.flatten_nil]
  refine .step (u64_decodes _) <| .step (u64_decodes _) <| .step (u64_decodes _) <|
    .step (u64_decodes _) <| .step (u64_decodes _) <| .step (u8_decodes _) <|
    .step (u8_decodes _) <| .step (u64_decodes _) <| .step (rAuth_decodes _ _) <| .pure ?_
  simp only [flag_ne_zero, ofByte_toByte]

theorem rTarget_decodes (p t : TombstoneTarget) : Decodes True (rTarget p) (wTarget t) t := by
  unfold rTarget wTarget
  simp only [List.flatten_cons, List.flatten_nil]
  refine .step (u8_decodes _) <| .step (u64_decodes _) <| .step (u64_decodes _) <|
    .step (u64_decodes _) <| .step (u64_decodes _) <| .step (u64_decodes _) <|
    .step (u64_decodes _) <| .step (u64_decodes _) <| .step (u64_decodes _) <|
    .step (u64_decodes _) <| .step (u64_decodes _) <| .step (u64_decodes _) <|
    .step (digest_decodes _) <| .step (u64_decodes _) <| .pure ?_
  simp only [ofByte_toByte]

theorem rCache_decodes (p c : CacheDescriptor) : Decodes True (rCache p) (wCache c) c := by
  unfold rCache wCache
  simp only [List.flatten_cons, List.flatten_nil]
  refine .step (u64_decodes _) <| .step (u8_decodes _) <| .step (u64_decodes _) <|
    .step (u64_decodes _) <| .step (u64_decodes _) <| .step (u8_decodes _) <|
    .step (u64_decodes _) <| .step (u8_decodes _) <| .step (u64_decodes _) <|
    .step (u8_decodes _) <| .step (u8_decodes _) <| .step (u8_decodes _) <|
    .step (u8_decodes _) <| .step (u64_decodes _) <| .step (u64_decodes _) <|
    .step (rAuth_decodes _ _) <| .step (u64_decodes _) <| .pure ?_
  simp only [flag_ne_zero, ofByte_toByte]

theorem rRep_decodes (p r : ReplicaDescriptor) : Decodes True (rRep p) (wRep r) r := by
  unfold rRep wRep
  simp only [List.flatten_cons, List.flatten_nil]
  refine .step (u64_decodes _) <| .step (u64_decodes _) <| .step (u64_decodes _) <|
    .step (u64_decodes _) <| .step (u64_decodes _) <| .step (u8_decodes _) <|
    .step (u8_decodes _) <| .step (u8_decodes _) <| .step (u8_decodes _) <|
    .step (u64_decodes _) <| .step (rAuth_decodes _ _) <| .pure ?_
  simp only [ofByte_toByte]

theorem rTomb_decodes (p t : TombstoneRecord) (ht : t.reason.length < 2 ^ 64) :
    Decodes (t.reason.length ≤ 1 <<< 20) (rTomb p) (wTomb t) t := by
  unfold rTomb wTomb
  simp only [List.flatten_cons, List.flatten_nil]
  exact .step (u64_decodes _) <| .step (rTarget_decodes _ _) <| .step (u64_decodes _) <|
    .step (u64_decodes _) <| .step (u64_decodes _) <| .last (string_decodes ht _) <|
    .step (u64_decodes _) <| .step (u64_decodes _) <| .pure rfl

theorem rObs_decodes (p o : ObservationRecord) (hs : o.subject.length < 2 ^ 64)
    (hk : o.subjectKey.length < 2 ^ 64) :
    Decodes (o.subject.length ≤ 1 <<< 20 ∧ o.subjectKey.length ≤ 1 <<< 20) (rObs p) (wObs o)
      o := by
  unfold rObs wObs
  simp only [List.flatten_cons, List.flatten_nil]
  refine .step (u64_decodes _) <| .step (u64_decodes _) <| .step (u64_decodes _) <|
    .seq (string_decodes hs _) <| .last (string_decodes hk _) <| .step (u8_decodes _) <|
    .step (u8_decodes _) <| .step (u8_decodes _) <| .step (u8_decodes _) <|
    .step (f64_decodes _) <| .step (u8_decodes _) <| .step (rAuth_decodes _ _) <|
    .step (u64_decodes _) <| .pure ?_
  simp only [ofByte_toByte]

/-- A location as it comes back: a digest that is not known is not written, so the prior one
    stays. -/
def locationAsRead (p l : LocationDescriptor) : LocationDescriptor :=
  { l with contentDigest := if l.contentDigestKnown then l.contentDigest else p.contentDigest }

theorem rLoc_decodes (p l : LocationDescriptor) (ht : l.processTag.length < 2 ^ 64)
    (hk : l.locator.key.length < 2 ^ 64) :
    Decodes (l.processTag.length ≤ 1 <<< 20 ∧ l.locator.key.length ≤ 1 <<< 24) (rLoc p) (wLoc l)
      (locationAsRead p l) := by
  unfold rLoc wLoc
  simp only [List.flatten_cons, List.flatten_nil]
  refine .step (u64_decodes _) <| .step (u64_decodes _) <| .step (u64_decodes _) <|
    .step (u64_decodes _) <| .step (u64_decodes _) <| .step (u8_decodes _) <|
    .step (u64_decodes _) <| .step (u64_decodes _) <| .seq (string_decodes ht _) <|
    .last (string_decodes hk _) <| .step (u64_decodes _) <| .step (u64_decodes _) <|
    .step (u8_decodes _) <| .step (u8_decodes _) <|
    .step (optional_decodes _ _ (digest_decodes _)) <| .step (u8_decodes _) <|
    .step (u8_decodes _) <| .step (u8_decodes _) <| .step (u8_decodes _) <|
    .step (u8_decodes _) <| .step (rEst_decodes _ _) <| .step (u64_decodes _) <|
    .step (u64_decodes _) <| .step (rAuth_decodes _ _) <| .step (u64_decodes _) <|
    .step (u64_decodes _) <| .pure ?_
  simp only [flag_ne_zero, ofByte_toByte]
  rfl

/-- A record as it comes back: digest and lease are written only when they are there. -/
def recordAsRead (p r : DirectoryRecord) : DirectoryRecord :=
  { r with
    contentDigest := if r.contentDigestKnown then r.contentDigest else p.contentDigest
    lease := if r.hasLease then r.lease else p.lease
    hasLease := r.hasLease || p.hasLease }

/-- A record with zeros and defaults where nothing is written comes back as it is. -/
theorem recordAsRead_same {r : DirectoryRecord}
    (hdigest : r.contentDigestKnown = false → r.contentDigest = Digest.Sha256.zero)
    (hlease : r.hasLease = false → r.lease = {}) : recordAsRead {} r = r := by
  have hcontent : (if r.contentDigestKnown then r.contentDigest else Digest.Sha256.zero) =
      r.contentDigest :=
    ite_eq_left_iff.mpr fun h => (hdigest (Bool.eq_false_of_not_eq_true h)).symm
  have hheld : (if r.hasLease then r.lease else {}) = r.lease :=
    ite_eq_left_iff.mpr fun h => (hlease (Bool.eq_false_of_not_eq_true h)).symm
  show { r with
    contentDigest := if r.contentDigestKnown then r.contentDigest else Digest.Sha256.zero
    lease := if r.hasLease then r.lease else {}
    hasLease := r.hasLease || false } = r
  rw [hcontent, hheld, Bool.or_false]

theorem rRec_decodes (p r : DirectoryRecord) (hn : r.nameSpace.length < 2 ^ 64) :
    Decodes (r.nameSpace.length ≤ 1 <<< 20) (rRec p) (wRec r) (recordAsRead p r) := by
  unfold rRec wRec
  simp only [List.flatten_cons, List.flatten_nil]
  refine .step (u64_decodes _) <| .step (u64_decodes _) <| .step (u64_decodes _) <|
    .step (u8_decodes _) <| .last (string_decodes hn _) <| .step (u64_decodes _) <|
    .step (u64_decodes _) <| .step (u64_decodes _) <| .step (u64_decodes _) <|
    .step (u64_decodes _) <| .step (u64_decodes _) <| .step (u64_decodes _) <|
    .step (u64_decodes _) <| .step (u8_decodes _) <| .step (u64_decodes _) <|
    .step (u64_decodes _) <| .step (u8_decodes _) <| .step (u8_decodes _) <|
    .step (optional_decodes _ _ (digest_decodes _)) <| .step (u64_decodes _) <|
    .step (u64_decodes _) <| .step (u64_decodes _) <| .step (u64_decodes _) <|
    .step (u64_decodes _) <| .step (u8_decodes _) <| .step (u8_decodes _) <|
    .step (u8_decodes _) <| .step (u8_decodes _) <| .step (u8_decodes _) <|
    .step (optional_decodes _ _ (rLease_decodes _ _)) <| .step (rEst_decodes _ _) <|
    .step (u64_decodes _) <| .step (rAuth_decodes _ _) <| .step (u64_decodes _) <|
    .step (u8_decodes _) <| .step (u8_decodes _) <| .step (u64_decodes _) <|
    .step (u64_decodes _) <| .step (u64_decodes _) <| .step (digest_decodes _) <| .pure ?_
  simp only [flag_ne_zero, ofByte_toByte]
  rfl

/-! ## 2. The snapshot -/

namespace Directory

/-- Every count is one recovery takes. -/
@[mk_iff] structure CountsFit (d : Directory) : Prop where
  records : d.records.length ≤ 100000000
  caches : d.caches.size ≤ 100000000
  locations : d.locations.size ≤ 100000000
  replicas : d.replicas.size ≤ 100000000
  leases : d.leases.size ≤ 100000000
  tombstones : d.tombstones.length ≤ 100000000
  observations : d.observations.length ≤ 100000000

/-- Every string is within the bound its reader uses. -/
@[mk_iff] structure StringsFit (d : Directory) : Prop where
  nameSpaces : ∀ r ∈ d.records, r.nameSpace.length ≤ 1 <<< 20
  locations : ∀ l ∈ d.locations.values,
    l.processTag.length ≤ 1 <<< 20 ∧ l.locator.key.length ≤ 1 <<< 24
  reasons : ∀ t ∈ d.tombstones, t.reason.length ≤ 1 <<< 20
  observations : ∀ o ∈ d.observations,
    o.subject.length ≤ 1 <<< 20 ∧ o.subjectKey.length ≤ 1 <<< 20

instance (d : Directory) : Decidable d.CountsFit := decidable_of_iff _ d.countsFit_iff.symm

instance (d : Directory) : Decidable d.StringsFit := decidable_of_iff _ d.stringsFit_iff.symm

/-- Limits far below what `size_t` holds. -/
theorem sizesFit_of_limits {d : Directory} (hc : d.CountsFit) (hs : d.StringsFit) :
    d.SizesFit where
  records := Nat.lt_of_le_of_lt hc.records (by decide)
  caches := Nat.lt_of_le_of_lt hc.caches (by decide)
  locations := Nat.lt_of_le_of_lt hc.locations (by decide)
  replicas := Nat.lt_of_le_of_lt hc.replicas (by decide)
  leases := Nat.lt_of_le_of_lt hc.leases (by decide)
  tombstones := Nat.lt_of_le_of_lt hc.tombstones (by decide)
  observations := Nat.lt_of_le_of_lt hc.observations (by decide)
  nameSpaces r hr := Nat.lt_of_le_of_lt (hs.nameSpaces r hr) (by decide)
  processTags l hl := Nat.lt_of_le_of_lt (hs.locations l hl).1 (by decide)
  locators l hl := Nat.lt_of_le_of_lt (hs.locations l hl).2 (by decide)
  reasons t ht := Nat.lt_of_le_of_lt (hs.reasons t ht) (by decide)
  subjects o ho := Nat.lt_of_le_of_lt (hs.observations o ho).1 (by decide)
  subjectKeys o ho := Nat.lt_of_le_of_lt (hs.observations o ho).2 (by decide)

/-- What a reader finds in a snapshot of `d`. -/
def snapshotOf (o : MapOrders) (d : Directory) : Snapshot where
  records := d.records.map (recordAsRead {})
  caches := o.caches.order d.caches.values
  locations := (o.locations.order d.locations.values).map (locationAsRead {})
  replicas := o.replicas.order d.replicas.values
  leases := o.leases.order d.leases.values
  tombstones := d.tombstones
  observations := d.observations
  epoch := d.epoch.value
  directoryGeneration := d.directoryGeneration.value

end Directory

open Directory

theorem readCount_decodes (n : UInt64) : Decodes True readCount (ByteWriter.u64 n) n :=
  (u64_decodes n).orFail _

theorem toNat_ofNat_size {n : Nat} (h : n < 2 ^ 64) : (UInt64.ofNat n).toNat = n := by
  rw [UInt64.toNat_ofNat']
  exact Nat.mod_eq_of_lt h

/-- A run of entities, as many as the count in front says. -/
theorem readEntities_decodes {α : Type} {p : Reader α} {enc : α → Bytes} {val : α → α}
    {fits : α → Prop} {xs : List α} {n : Nat} (text : String) (hn : xs.length = n)
    (hsize : n < 2 ^ 64) (h : ∀ x ∈ xs, Decodes (fits x) p (enc x) (val x)) :
    Decodes (∀ x ∈ xs, fits x) (readEntities (.ofNat n) p text) (xs.flatMap enc)
      (xs.map val) := by
  unfold readEntities
  rw [toNat_ofNat_size hsize, ← hn]
  exact Decodes.times xs fun x hx => (h x hx).orFail _

section Saved

variable {o : MapOrders} {d : Directory}

/-- The image of the body, with everything in a row. -/
theorem snapshotBody_eq : d.snapshotBody o =
    open ByteWriter in
    u64 (.ofNat d.records.length) ++ (u64 (.ofNat d.caches.size) ++
      (u64 (.ofNat d.locations.size) ++ (u64 (.ofNat d.replicas.size) ++
      (u64 (.ofNat d.leases.size) ++ (u64 (.ofNat d.tombstones.length) ++
      (u64 (.ofNat d.observations.length) ++ (u64 d.epoch.value ++
      (u64 d.directoryGeneration.value ++ (d.records.flatMap wRec ++
      ((o.caches.order d.caches.values).flatMap wCache ++
      ((o.locations.order d.locations.values).flatMap wLoc ++
      ((o.replicas.order d.replicas.values).flatMap wRep ++
      ((o.leases.order d.leases.values).flatMap wLease ++
      (d.tombstones.flatMap wTomb ++ (d.observations.flatMap wObs ++ []))))))))))))))) := by
  simp [Directory.snapshotBody, Directory.snapshotCounts, ByteWriter.strong]

/-- The test on the counts. -/
theorem countsTest_iff (h : d.SizesFit) :
    d.CountsFit ↔
      ([UInt64.ofNat d.records.length, .ofNat d.caches.size, .ofNat d.locations.size,
        .ofNat d.replicas.size, .ofNat d.leases.size, .ofNat d.tombstones.length,
        .ofNat d.observations.length].any fun n => n > Persistence.maxCount) = false := by
  have hmax {n : Nat} (hn : n < 2 ^ 64) :
      ¬ UInt64.ofNat n > Persistence.maxCount ↔ n ≤ 100000000 := by
    rw [gt_iff_lt, UInt64.lt_iff_toNat_lt, toNat_ofNat_size hn, Nat.not_lt]
    rfl
  simp only [List.any_eq_false, List.forall_mem_cons, decide_eq_true_eq, hmax h.records,
    hmax h.caches, hmax h.locations, hmax h.replicas, hmax h.leases, hmax h.tombstones,
    hmax h.observations]
  constructor
  · intro h
    obtain ⟨h1, h2, h3, h4, h5, h6, h7⟩ := h
    exact ⟨h1, h2, h3, h4, h5, h6, h7, by simp⟩
  · intro h
    obtain ⟨h1, h2, h3, h4, h5, h6, h7, _⟩ := h
    exact ⟨h1, h2, h3, h4, h5, h6, h7⟩

theorem length_order {α : Type} (e : Enumeration α) (l : List α) :
    (e.order l).length = l.length :=
  (e.perm l).length_eq

/-- **The body of a snapshot against its reader.** -/
theorem readBody_decodes (h : d.SizesFit) :
    Decodes (d.CountsFit ∧ d.StringsFit) readBody (d.snapshotBody o) (d.snapshotOf o) := by
  have hmem {α : Type} {e : Enumeration α} {l : List α} {x : α} : x ∈ e.order l ↔ x ∈ l :=
    (e.perm l).mem_iff
  have hrecs := readEntities_decodes "malformed record" rfl h.records fun r hr =>
    rRec_decodes {} r (h.nameSpaces r hr)
  have hcaches := readEntities_decodes "malformed cache"
    (length_order o.caches d.caches.values) h.caches fun c _ => rCache_decodes {} c
  have hlocs := readEntities_decodes "malformed location"
    (length_order o.locations d.locations.values) h.locations fun l hl =>
      rLoc_decodes {} l (h.processTags l (hmem.mp hl)) (h.locators l (hmem.mp hl))
  have hreps := readEntities_decodes "malformed replica"
    (length_order o.replicas d.replicas.values) h.replicas fun r _ => rRep_decodes {} r
  have hleases := readEntities_decodes "malformed lease"
    (length_order o.leases d.leases.values) h.leases fun l _ => rLease_decodes {} l
  have htombs := readEntities_decodes "malformed tombstone" rfl h.tombstones fun t ht =>
    rTomb_decodes {} t (h.reasons t ht)
  have hobs := readEntities_decodes "malformed observation" rfl h.observations fun x hx =>
    rObs_decodes {} x (h.subjects x hx) (h.subjectKeys x hx)
  rw [snapshotBody_eq]
  unfold readBody
  refine Decodes.of_iff (.step (readCount_decodes _) <| .step (readCount_decodes _) <|
    .step (readCount_decodes _) <| .step (readCount_decodes _) <| .step (readCount_decodes _) <|
    .step (readCount_decodes _) <| .step (readCount_decodes _) <|
    .step ((u64_decodes _).orFail _) <| .step ((u64_decodes _).orFail _) <|
    .check (countsTest_iff h) <| .seq hrecs <| .seq hcaches <| .seq hlocs <|
    .seq hreps <| .seq hleases <| .seq htombs <| .last hobs <| .pure ?_) ?_
  · simp only [List.map_id']
    rfl
  · simp only [implies_true, true_and, hmem]
    constructor
    · intro h
      obtain ⟨hc, h1, h2, h3, h4⟩ := h
      exact ⟨hc, h1, h2, h3, h4⟩
    · intro h
      obtain ⟨hc, h1, h2, h3, h4⟩ := h
      exact ⟨hc, h1, h2, h3, h4⟩

theorem readHeader_decodes (body : Bytes) :
    Decodes True readHeader (snapshotHeader body) (Digest.crc32 body, Digest.sha256 body) := by
  unfold readHeader snapshotHeader
  simp only [List.flatten_cons, List.flatten_nil]
  have hpass {a : UInt32} : True ↔ (a != a) = false := by simp
  refine Decodes.of_iff (.step ((u32_decodes _).orFail _) <| .check hpass <|
    .step ((u32_decodes _).orFail _) <| .check hpass <| .step ((u32_decodes _).orFail _) <|
    .step ((digest_decodes _).orFail _) <| .pure rfl) (by simp)

theorem length_snapshotHeader (body : Bytes) :
    (snapshotHeader body).length = Persistence.header := by
  simp [snapshotHeader, ByteWriter.u32, ByteWriter.bytes, length_littleEndian,
    List.Vector.toList_length, Persistence.header]

/-- Behind a header that fits the body, the body decides. -/
theorem parseSnapshot_headed (body : Bytes) :
    parseSnapshot (snapshotHeader body ++ body) =
      readBody.runAll (persistenceCorrupt "trailing garbage") body := by
  have hlen := length_snapshotHeader body
  have hread := ((readHeader_decodes body) [] body).1 trivial
  simp only [List.nil_append, List.length_nil, Nat.zero_add, hlen] at hread
  have hdrop : (snapshotHeader body ++ body).drop Persistence.header = body := by
    rw [← hlen, List.drop_left]
  unfold parseSnapshot
  rw [if_neg (by rw [List.length_append, hlen]; omega), hread]
  simp only [hdrop, bne_self_eq_false, Bool.false_eq_true, if_false,
    Digest.digestEqual_iff.mpr rfl, Bool.not_true]

/-- **A snapshot is parsed back into what was written, within the reader's limits and only
    there.** -/
theorem parseSnapshot_saved (h : d.SizesFit) :
    (d.CountsFit ∧ d.StringsFit →
      parseSnapshot (d.saveToBuffer o).2 = .ok (d.snapshotOf o)) ∧
    (¬ (d.CountsFit ∧ d.StringsFit) →
      ∃ f, parseSnapshot (d.saveToBuffer o).2 = .error (.refused f)) := by
  show (_ → parseSnapshot (snapshotHeader (d.snapshotBody o) ++ d.snapshotBody o) = _) ∧
    (_ → ∃ f, parseSnapshot (snapshotHeader (d.snapshotBody o) ++ d.snapshotBody o) = _)
  rw [parseSnapshot_headed]
  exact (readBody_decodes h).runAll _

end Saved

/-! ## 3. The counts of a parsed snapshot -/

structure Snapshot.CountsFit (s : Snapshot) : Prop where
  records : s.records.length ≤ 100000000
  caches : s.caches.length ≤ 100000000
  locations : s.locations.length ≤ 100000000
  replicas : s.replicas.length ≤ 100000000
  leases : s.leases.length ≤ 100000000
  tombstones : s.tombstones.length ≤ 100000000
  observations : s.observations.length ≤ 100000000

/-- The reader tests the counts before it reads an entity, and reads as many as they say. -/
theorem readBody_counts {c c' : Cursor UInt8} {s : Snapshot}
    (h : readBody.raw c = .ok (s, c')) : s.CountsFit := by
  unfold readBody at h
  obtain ⟨nrecs, c1, _, h⟩ := Parser.bind_ok h
  obtain ⟨ncaches, c2, _, h⟩ := Parser.bind_ok h
  obtain ⟨nlocs, c3, _, h⟩ := Parser.bind_ok h
  obtain ⟨nreps, c4, _, h⟩ := Parser.bind_ok h
  obtain ⟨nleases, c5, _, h⟩ := Parser.bind_ok h
  obtain ⟨ntombs, c6, _, h⟩ := Parser.bind_ok h
  obtain ⟨nobs, c7, _, h⟩ := Parser.bind_ok h
  obtain ⟨epoch, c8, _, h⟩ := Parser.bind_ok h
  obtain ⟨dirgen, c9, _, h⟩ := Parser.bind_ok h
  obtain ⟨_, c10, hcounts, h⟩ := Parser.bind_ok h
  obtain ⟨recs, c11, hrecs, h⟩ := Parser.bind_ok h
  obtain ⟨caches, c12, hcaches, h⟩ := Parser.bind_ok h
  obtain ⟨locs, c13, hlocs, h⟩ := Parser.bind_ok h
  obtain ⟨reps, c14, hreps, h⟩ := Parser.bind_ok h
  obtain ⟨leases, c15, hleases, h⟩ := Parser.bind_ok h
  obtain ⟨tombs, c16, htombs, h⟩ := Parser.bind_ok h
  obtain ⟨obs, c17, hobs, h⟩ := Parser.bind_ok h
  cases h
  have hmax {n : UInt64} : ¬ n > Persistence.maxCount ↔ n.toNat ≤ 100000000 := by
    rw [gt_iff_lt, UInt64.lt_iff_toNat_lt, Nat.not_lt]
    rfl
  have hfit := Parser.refuseIf_ok hcounts
  simp only [List.any_eq_false, List.forall_mem_cons, decide_eq_true_eq, hmax] at hfit
  obtain ⟨h1, h2, h3, h4, h5, h6, h7, _⟩ := hfit
  refine ⟨?_, ?_, ?_, ?_, ?_, ?_, ?_⟩
  · exact Nat.le_trans (Nat.le_of_eq (Parser.length_times _ _ _ _ hrecs)) h1
  · exact Nat.le_trans (Nat.le_of_eq (Parser.length_times _ _ _ _ hcaches)) h2
  · exact Nat.le_trans (Nat.le_of_eq (Parser.length_times _ _ _ _ hlocs)) h3
  · exact Nat.le_trans (Nat.le_of_eq (Parser.length_times _ _ _ _ hreps)) h4
  · exact Nat.le_trans (Nat.le_of_eq (Parser.length_times _ _ _ _ hleases)) h5
  · exact Nat.le_trans (Nat.le_of_eq (Parser.length_times _ _ _ _ htombs)) h6
  · exact Nat.le_trans (Nat.le_of_eq (Parser.length_times _ _ _ _ hobs)) h7

/-- A parsed snapshot is what the body reader gave. -/
theorem parseSnapshot_body {buf : Bytes} {s : Snapshot} (h : parseSnapshot buf = .ok s) :
    ∃ body, readBody.runAll (persistenceCorrupt "trailing garbage") body = .ok s := by
  rcases parseSnapshot_cases buf with ⟨f, hf⟩ | ⟨body, hbody⟩
  · rw [hf] at h
    cases h
  · exact ⟨body, hbody.symm.trans h⟩

theorem parseSnapshot_counts {buf : Bytes} {s : Snapshot} (h : parseSnapshot buf = .ok s) :
    s.CountsFit := by
  obtain ⟨body, hbody⟩ := parseSnapshot_body h
  obtain ⟨c', hread⟩ := Parser.runAll_ok hbody
  exact readBody_counts hread

/-- What is written of a directory counts what the directory holds. -/
theorem countsFit_snapshotOf {d : Directory} (h : d.CountsFit) (o : MapOrders) :
    (d.snapshotOf o).CountsFit where
  records := Nat.le_trans (Nat.le_of_eq (List.length_map _)) h.records
  caches := Nat.le_trans (Nat.le_of_eq (length_order _ _)) h.caches
  locations :=
    Nat.le_trans (Nat.le_of_eq ((List.length_map _).trans (length_order _ _))) h.locations
  replicas := Nat.le_trans (Nat.le_of_eq (length_order _ _)) h.replicas
  leases := Nat.le_trans (Nat.le_of_eq (length_order _ _)) h.leases
  tombstones := h.tombstones
  observations := h.observations

theorem countsFit_install {s : Snapshot} (hs : s.CountsFit) (d : Directory) :
    (d.install s).CountsFit where
  records := by
    show (s.records.map recoverRecord).length ≤ _
    rw [List.length_map]
    exact hs.records
  caches := Nat.le_trans (KeyedMap.size_ofList_le s.caches) hs.caches
  locations := by
    have h : (d.install s).locations.size =
        (KeyedMap.ofList LocationDescriptor.locationId s.locations).size := List.length_map _
    rw [h]
    exact Nat.le_trans (KeyedMap.size_ofList_le s.locations) hs.locations
  replicas := Nat.le_trans (KeyedMap.size_ofList_le s.replicas) hs.replicas
  leases := by
    have h : (d.install s).leases.size =
        (KeyedMap.ofList LeaseDescriptor.leaseId s.leases).size := List.length_map _
    rw [h]
    exact Nat.le_trans (KeyedMap.size_ofList_le s.leases) hs.leases
  tombstones := hs.tombstones
  observations := hs.observations

end CacheDirectory
