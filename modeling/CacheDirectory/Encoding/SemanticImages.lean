/-
  File:      CacheDirectory/Encoding/SemanticImages.lean
  Subject:   WHAT THE TWO SEMANTIC-DIGEST ENCODERS FEED TO SHA-256.

  Registration and recovery write the fields of a record one behind the other, each from a list of
  its own. Everything in the image is of one width but the name space, which its length precedes,
  and the content digest, which a flag precedes.

  * `nameSpace_length_of_image` -- the image tells how long the name space is;
  * `image_cancels` -- field by field;
  * `semantic_images` -- the two encoders write one image, and it tells every field it covers.
-/
import CacheDirectory.Model.Persistence

namespace CacheDirectory

open Library Directory

/-! ## 1. The optional digest -/

section Optional

open ByteWriter

/-- A part that is there when a flag is set. -/
theorem optional_cancels {b c : Bool} (hflag : b = c) (d e : ContentDigest) :
    Cancels ((if b then some d else none) = if c then some e else none)
      (if b then bytes d.toList else []) (if c then bytes e.toList else []) := by
  subst hflag
  cases b with
  | false => exact .imp .nil fun _ => rfl
  | true =>
      have hlen : (bytes d.toList).length = (bytes e.toList).length :=
        d.toList_length.trans e.toList_length.symm
      exact (Cancels.of_length hlen).imp fun h => congrArg some (Subtype.ext h)

/-- The flag and the part behind it, read off what they are about. -/
theorem flag_and_digest {b c : Bool} {d e : ContentDigest}
    (h : (if b then some d else none) = if c then some e else none) :
    b = c ∧ (if b then bytes d.toList else []) = if c then bytes e.toList else [] := by
  cases b with
  | false =>
      cases c with
      | false => exact ⟨rfl, rfl⟩
      | true => cases h
  | true =>
      cases c with
      | false => cases h
      | true =>
          cases h
          exact ⟨rfl, rfl⟩

end Optional

/-! ## 2. The fields of an image -/

/-- The fields under the semantic digest. -/
structure SemanticFields where
  stateId : StateId
  stateGeneration : StateGeneration
  kind : StateKind
  nameSpace : Bytes
  cache : CacheId
  entry : CacheEntryId
  replica : ReplicaId
  location : LocationId
  node : NodeId
  worker : WorkerId
  workerBoot : WorkerBootId
  device : DeviceId
  domain : MemoryDomain
  logicalBytes : UInt64
  physicalBytes : UInt64
  physicalBytesKnown : Bool
  contentDigest : Option ContentDigest
  compatibility : CompatibilityId
  provenance : ProvenanceId
  locationGeneration : LocationGeneration
  replicaGeneration : ReplicaGeneration
  entryGeneration : EntryGeneration
  health : Health
  freshness : Freshness
  integrity : Integrity
  reachability : Reachability
  hasLease : Bool
  policyGeneration : PolicyGeneration
  authority : AuthorityEnvelope

/-- Of a record; the content digest counts when it is known. -/
def semanticFields (r : DirectoryRecord) : SemanticFields where
  stateId := r.stateId
  stateGeneration := r.stateGeneration
  kind := r.kind
  nameSpace := r.nameSpace
  cache := r.cache
  entry := r.entry
  replica := r.replica
  location := r.location
  node := r.node
  worker := r.worker
  workerBoot := r.workerBoot
  device := r.device
  domain := r.domain
  logicalBytes := r.logicalBytes
  physicalBytes := r.physicalBytes
  physicalBytesKnown := r.physicalBytesKnown
  contentDigest := if r.contentDigestKnown then some r.contentDigest else none
  compatibility := r.compatibility
  provenance := r.provenance
  locationGeneration := r.locationGeneration
  replicaGeneration := r.replicaGeneration
  entryGeneration := r.entryGeneration
  health := r.health
  freshness := r.freshness
  integrity := r.integrity
  reachability := r.reachability
  hasLease := r.hasLease
  policyGeneration := r.policyGeneration
  authority := r.authority

/-! ## 3. Images of a record -/

section Images

open ByteWriter

theorem length_semanticImage (r : DirectoryRecord) :
    (semanticImage r).length =
      193 + r.nameSpace.length + if r.contentDigestKnown then 32 else 0 := by
  unfold semanticImage
  simp only [List.length_flatten, List.map_cons, List.map_nil, List.sum_cons, List.sum_nil,
    length_u64, length_strong, length_flag, length_enum, length_string, length_optional, bytes,
    List.Vector.toList_length]
  omega

variable {r r' : DirectoryRecord}

/-- **Records of one image have name spaces of one length**: the lengths agree modulo 2^64, and
    they differ by no more than a digest. -/
theorem nameSpace_length_of_image (h : semanticImage r = semanticImage r') :
    r.nameSpace.length = r'.nameSpace.length := by
  have hstart (x : DirectoryRecord) : ∃ rest, semanticImage x =
      [strong x.stateId, strong x.stateGeneration, enum x.kind,
        u64 (UInt64.ofNat x.nameSpace.length)].flatten ++ rest := by
    unfold semanticImage string
    simp only [List.flatten_cons, List.append_assoc, List.flatten_nil, List.nil_append,
      List.append_cancel_left_eq]
    exact ⟨_, rfl⟩
  obtain ⟨rest, himage⟩ := hstart r
  obtain ⟨rest', himage'⟩ := hstart r'
  have hsizes := congrArg List.length h
  rw [length_semanticImage, length_semanticImage] at hsizes
  rw [himage, himage'] at h
  have hprefix := ((strong_cancels r.stateId r'.stateId).cons fun _ =>
    (strong_cancels r.stateGeneration r'.stateGeneration).cons fun _ =>
    (enum_cancels r.kind r'.kind).cons fun _ => (u64_cancels _ _).cons fun _ => .nil).of_leading h
  have hmod := congrArg UInt64.toNat hprefix.2.2.2.1
  rw [UInt64.toNat_ofNat', UInt64.toNat_ofNat'] at hmod
  split at hsizes <;> split at hsizes <;> omega

/-- **Field by field**, for name spaces of one length. -/
theorem image_cancels (h : r.nameSpace.length = r'.nameSpace.length) :
    Cancels (semanticFields r = semanticFields r') (semanticImage r) (semanticImage r') := by
  have hflag : Cancels (r.contentDigestKnown = r'.contentDigestKnown) _ _ := flag_cancels _ _
  unfold semanticImage
  refine ((strong_cancels _ _).cons fun _ => (strong_cancels _ _).cons fun _ =>
    (enum_cancels _ _).cons fun _ => (string_cancels h).cons fun _ =>
    (strong_cancels _ _).cons fun _ => (strong_cancels _ _).cons fun _ =>
    (strong_cancels _ _).cons fun _ => (strong_cancels _ _).cons fun _ =>
    (strong_cancels _ _).cons fun _ => (strong_cancels _ _).cons fun _ =>
    (strong_cancels _ _).cons fun _ => (strong_cancels _ _).cons fun _ =>
    (enum_cancels _ _).cons fun _ => (u64_cancels _ _).cons fun _ =>
    (u64_cancels _ _).cons fun _ => (flag_cancels _ _).cons fun _ =>
    hflag.cons fun hknown => (optional_cancels hknown _ _).cons fun _ =>
    (strong_cancels _ _).cons fun _ => (strong_cancels _ _).cons fun _ =>
    (strong_cancels _ _).cons fun _ => (strong_cancels _ _).cons fun _ =>
    (strong_cancels _ _).cons fun _ => (enum_cancels _ _).cons fun _ =>
    (enum_cancels _ _).cons fun _ => (enum_cancels _ _).cons fun _ =>
    (enum_cancels _ _).cons fun _ => (flag_cancels _ _).cons fun _ =>
    (strong_cancels _ _).cons fun _ => (strong_cancels _ _).cons fun _ =>
    (strong_cancels _ _).cons fun _ => (strong_cancels _ _).cons fun _ =>
    (u64_cancels _ _).cons fun _ => .nil).imp fun hfields => ?_
  obtain ⟨hstate, hgeneration, hkind, hname, hcache, hentry, hreplica, hlocation, hnode, hworker,
    hboot, hdevice, hdomain, hlogical, hphysical, hphysicalKnown, -, hdigest, hcompatibility,
    hprovenance, hlocationGen, hreplicaGen, hentryGen, hhealth, hfreshness, hintegrity, hreach,
    hlease, hpolicy, hepoch, hauthorityBoot, hdirectoryGen, hfence, -⟩ := hfields
  have hauthority : r.authority = r'.authority := by
    show (⟨_, _, _, _⟩ : AuthorityEnvelope) = ⟨_, _, _, _⟩
    rw [hepoch, hauthorityBoot, hdirectoryGen, hfence]
  unfold semanticFields
  rw [hstate, hgeneration, hkind, hname, hcache, hentry, hreplica, hlocation, hnode, hworker,
    hboot, hdevice, hdomain, hlogical, hphysical, hphysicalKnown, hdigest, hcompatibility,
    hprovenance, hlocationGen, hreplicaGen, hentryGen, hhealth, hfreshness, hintegrity, hreach,
    hlease, hpolicy, hauthority]

/-- **The image tells the fields, and nothing but the fields.** -/
theorem semanticImage_eq_iff :
    semanticImage r = semanticImage r' ↔ semanticFields r = semanticFields r' := by
  constructor
  · intro h
    exact (image_cancels (nameSpace_length_of_image h)).of_eq h
  · intro h
    simp only [semanticFields, SemanticFields.mk.injEq] at h
    obtain ⟨hstate, hgeneration, hkind, hname, hcache, hentry, hreplica, hlocation, hnode, hworker,
      hboot, hdevice, hdomain, hlogical, hphysical, hphysicalKnown, hdigest, hcompatibility,
      hprovenance, hlocationGen, hreplicaGen, hentryGen, hhealth, hfreshness, hintegrity, hreach,
      hlease, hpolicy, hauthority⟩ := h
    obtain ⟨hflag, hbytes⟩ := flag_and_digest hdigest
    unfold semanticImage
    rw [hbytes, hflag, hstate, hgeneration, hkind, hname, hcache, hentry, hreplica, hlocation,
      hnode, hworker, hboot, hdevice, hdomain, hlogical, hphysical, hphysicalKnown,
      hcompatibility, hprovenance, hlocationGen, hreplicaGen, hentryGen, hhealth, hfreshness,
      hintegrity, hreach, hlease, hpolicy, hauthority]

end Images

/-- **The two encoders feed the same bytes to SHA-256, and these tell every field they cover.** -/
theorem semantic_images :
    (∀ r, recomputedImage r = semanticImage r) ∧
      ∀ r r', semanticImage r = semanticImage r' ↔ semanticFields r = semanticFields r' :=
  ⟨fun _ => rfl, fun _ _ => semanticImage_eq_iff⟩

end CacheDirectory
