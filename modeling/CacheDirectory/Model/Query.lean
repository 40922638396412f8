/-
  File:      CacheDirectory/Model/Query.lean
  Subject:   QUERIES: FILTER, SCORE, RANK, EXPLAIN (query.hpp, directory.cpp).

  `queryImpl` works on a list of positions, sorts it and drops repetitions; `query` takes the
  positions from the cached index, `queryScan` takes all of them. The ranking computes on
  doubles: `ScoreArith` is that arithmetic, and nothing below depends on what it computes. The
  order in which a hash multimap enumerates one bucket is an `Enumeration`.
-/
import CacheDirectory.Model.Directory

namespace CacheDirectory

open Library

/-! ## 1. Doubles -/

/-- The operations on `double` the ranking uses, with the text `operator<<` prints. -/
class ScoreArith (F : Type) where
  ofBits : F64 → F
  ofNat : Nat → F
  add : F → F → F
  sub : F → F → F
  mul : F → F → F
  div : F → F → F
  lt : F → F → Bool
  le : F → F → Bool
  beq : F → F → Bool
  text : F → String

namespace ScoreArith

variable {F : Type} [ScoreArith F]

/-- Binary64, the source's own; it prints with other digits than `operator<<`. -/
instance : ScoreArith Float where
  ofBits b := Float.ofBits b.bits
  ofNat := Float.ofNat
  add := (· + ·)
  sub := (· - ·)
  mul := (· * ·)
  div := (· / ·)
  lt a b := a < b
  le a b := a ≤ b
  beq a b := a == b
  text := toString

/-- `std::min`. -/
def min (a b : F) : F := if lt b a then b else a

/-- `std::max`. -/
def max (a b : F) : F := if lt a b then b else a

def zero : F := ofNat 0

def one : F := ofNat 1

/-- The literal `0.5`. -/
def half : F := ofBits ⟨0x3FE0000000000000⟩

/-- `b ? 1.0 : 0.0`. -/
def indicator (b : Bool) : F := if b then one else zero

/-- `std::max(0.0, 1.0 - std::min(x, 1.0))`. -/
def inverse (x : F) : F := max zero (sub one (min x one))

end ScoreArith

/-! ## 2. Query, candidates, result -/

structure DirectoryQuery where
  queryId : QueryId := {}
  exactState : Bool := false
  state : StateId := {}
  exactStateGeneration : Bool := false
  stateGeneration : StateGeneration := {}
  hasKind : Bool := false
  kind : StateKind := .genericState
  nameSpace : Bytes := []
  requireContentDigest : Bool := false
  contentDigest : ContentDigest := Digest.Sha256.zero
  requireCompatibility : Bool := false
  compatibility : CompatibilityId := {}
  hasIntegrity : Bool := false
  integrity : Integrity := .unknown
  hasFreshness : Bool := false
  freshness : Freshness := .unknown
  hasHealth : Bool := false
  health : Health := .unknown
  hasReachability : Bool := false
  reachability : Reachability := .unknown
  allowedDomains : List MemoryDomain := []
  preferredDomains : List MemoryDomain := []
  hasMaxLatency : Bool := false
  maxLatencyNs : F64 := {}
  hasPreferredNode : Bool := false
  preferredNode : NodeId := {}
  hasPreferredDevice : Bool := false
  preferredDevice : DeviceId := {}
  requesterProcessTag : Bytes := []
  requesterNode : NodeId := {}
  minReplicaCount : UInt32 := 0
  currentOnly : Bool := true
  deriving DecidableEq

structure RankingFactor (F : Type) where
  kind : RankingFactorKind
  weight : F
  value : F
  contribution : F
  note : Bytes

structure Candidate (F : Type) where
  record : DirectoryRecord
  factors : List (RankingFactor F)
  score : F
  selected : Bool := false

structure Rejection where
  recordId : DirectoryRecordId
  reason : RejectionReason
  state : StateId
  stateGeneration : StateGeneration
  replica : ReplicaId
  location : LocationId
  deriving DecidableEq

structure ExplanationEntry where
  kind : String
  text : String
  deriving DecidableEq

structure QueryResult (F : Type) where
  queryId : QueryId := {}
  outcome : QueryOutcome := .unknown
  candidates : List (Candidate F) := []
  rejections : List Rejection := []
  selectedIndex : UInt32 := 0
  matchedScanCount : UInt32 := 0
  explanation : List ExplanationEntry := []
  summary : Bytes := []

/-! ## 3. Ranks -/

/-- The ranks `ri`, `rf`, `rh`, `rr`; a byte that names no enumerator falls out of the switch. -/
def ri : Integrity → Nat
  | .verified => 4 | .unverified => 3 | .unknown => 2 | .corrupt => 1 | .missing => 0
  | .undeclared _ _ => 2

def rf : Freshness → Nat
  | .current => 3 | .revalidationRequired => 2 | .stale => 1 | .unknown => 0
  | .undeclared _ _ => 0

def rh : Health → Nat
  | .healthy => 4 | .degraded => 3 | .unhealthy => 2 | .unavailable => 1 | .unknown => 0
  | .undeclared _ _ => 0

def rr : Reachability → Nat
  | .reachable => 4 | .degraded => 3 | .revalidationRequired => 2 | .unknown => 1
  | .unreachable => 0
  | .undeclared _ _ => 0

section Ranks

variable {F : Type} [ScoreArith F]

open ScoreArith

def ni (i : Integrity) : F := div (ofNat (ri i)) (ofNat 4)
def nf (f : Freshness) : F := div (ofNat (rf f)) (ofNat 3)
def nh (h : Health) : F := div (ofNat (rh h)) (ofNat 4)
def nr (r : Reachability) : F := div (ofNat (rr r)) (ofNat 4)

end Ranks

/-! ## 4. Filters -/

/-- Does the record's identity match the query? -/
def identifyMatches (r : DirectoryRecord) (q : DirectoryQuery) : Bool :=
  !(q.exactState && r.stateId != q.state) &&
    !(q.exactStateGeneration && r.stateGeneration != q.stateGeneration) &&
    !(q.hasKind && r.kind != q.kind) &&
    !(!q.nameSpace.isEmpty && r.nameSpace != q.nameSpace) &&
    !(q.requireContentDigest &&
      !(r.contentDigestKnown && Digest.digestEqual r.contentDigest q.contentDigest)) &&
    !(q.requireCompatibility && r.compatibility != q.compatibility)

/-- The first hard filter the record fails. -/
def hardReject (r : DirectoryRecord) (q : DirectoryQuery) : Option RejectionReason :=
  firstFailure
    [(q.currentOnly && !r.current, .notCurrent),
      (r.lifecycle == .invalidated, .invalidated),
      (r.lifecycle == .tombstoned, .tombstoned),
      (r.lifecycle == .expired, .expiredLease),
      (r.integrity == .corrupt, .corrupt),
      (r.integrity == .missing, .missingBytes),
      (q.hasIntegrity && ri r.integrity < ri q.integrity, .integrityBelowRequirement),
      (q.hasFreshness && rf r.freshness < rf q.freshness, .freshnessBelowRequirement),
      (q.hasHealth && rh r.health < rh q.health, .healthBelowRequirement),
      (q.hasReachability && rr r.reachability < rr q.reachability,
        .reachabilityBelowRequirement),
      (!q.allowedDomains.isEmpty && !q.allowedDomains.contains r.domain, .domainUnavailable),
      (r.reachability == .unreachable, .unreachable),
      (r.freshness == .stale, .staleRecord),
      (r.hasLease && r.lease.state == .expired, .expiredLease)]

def rejectionOf (r : DirectoryRecord) (reason : RejectionReason) : Rejection :=
  { recordId := r.recordId
    reason := reason
    state := r.stateId
    stateGeneration := r.stateGeneration
    replica := r.replica
    location := r.location }

/-- `std::unique` and the `erase` behind it: of equal neighbours one stays. -/
def unique : List Nat → List Nat
  | [] => []
  | [i] => [i]
  | i :: j :: is => if i = j then unique (j :: is) else i :: unique (j :: is)

/-! ## 5. Texts -/

def Freshness.str : Freshness → String
  | .current => "CURRENT" | .stale => "STALE"
  | .revalidationRequired => "REVALIDATION_REQUIRED" | _ => "UNKNOWN"

def Integrity.str : Integrity → String
  | .unverified => "UNVERIFIED" | .verified => "VERIFIED" | .corrupt => "CORRUPT"
  | .missing => "MISSING" | _ => "UNKNOWN"

def Reachability.str : Reachability → String
  | .reachable => "REACHABLE" | .degraded => "DEGRADED" | .unreachable => "UNREACHABLE"
  | .revalidationRequired => "REVALIDATION_REQUIRED" | _ => "UNKNOWN"

def MemoryDomain.str : MemoryDomain → String
  | .cudaDevice => "CUDA_DEVICE" | .hostPinned => "HOST_PINNED" | .hostMemory => "HOST_MEMORY"
  | .localFilesystem => "LOCAL_FILESYSTEM" | .localNvmeClass => "LOCAL_NVME_CLASS"
  | .sharedFilesystemClass => "SHARED_FILESYSTEM_CLASS"
  | .objectStorageClass => "OBJECT_STORAGE_CLASS" | .remoteCacheClass => "REMOTE_CACHE_CLASS"
  | .syntheticRemote => "SYNTHETIC_REMOTE" | _ => "UNKNOWN"

def QueryOutcome.str : QueryOutcome → String
  | .foundLocal => "FOUND_LOCAL" | .foundRemote => "FOUND_REMOTE"
  | .foundMultiple => "FOUND_MULTIPLE" | .notFound => "NOT_FOUND" | .staleOnly => "STALE_ONLY"
  | .unreachableOnly => "UNREACHABLE_ONLY" | .corruptOnly => "CORRUPT_ONLY"
  | .incompatibleOnly => "INCOMPATIBLE_ONLY"
  | .insufficientEvidence => "INSUFFICIENT_EVIDENCE" | _ => "UNKNOWN"

def RejectionReason.str : RejectionReason → String
  | .wrongState => "WRONG_STATE" | .wrongStateGeneration => "WRONG_STATE_GENERATION"
  | .wrongContentDigest => "WRONG_CONTENT_DIGEST" | .staleRecord => "STALE_RECORD"
  | .tombstoned => "TOMBSTONED" | .invalidated => "INVALIDATED" | .corrupt => "CORRUPT"
  | .missingBytes => "MISSING_BYTES" | .unreachable => "UNREACHABLE"
  | .incompatible => "INCOMPATIBLE" | .domainUnavailable => "DOMAIN_UNAVAILABLE"
  | .healthBelowRequirement => "HEALTH_BELOW_REQUIREMENT"
  | .freshnessBelowRequirement => "FRESHNESS_BELOW_REQUIREMENT"
  | .reachabilityBelowRequirement => "REACHABILITY_BELOW_REQUIREMENT"
  | .integrityBelowRequirement => "INTEGRITY_BELOW_REQUIREMENT"
  | .staleAuthority => "STALE_AUTHORITY" | .expiredLease => "EXPIRED_LEASE"
  | .notCurrent => "NOT_CURRENT" | .noRequiredReplicaCount => "NO_REQUIRED_REPLICA_COUNT"
  | _ => "MISSING_REQUIRED_EVIDENCE"

namespace Directory

variable {F : Type} [ScoreArith F]

open ScoreArith

/-! ## 6. Scores -/

/-- The process tag of the record's location, empty when the location is not registered. -/
def processTag (d : Directory) (r : DirectoryRecord) : Bytes :=
  ((d.locations.find r.location).map (·.processTag)).getD []

def sameProcess (d : Directory) (r : DirectoryRecord) (q : DirectoryQuery) : Bool :=
  !q.requesterProcessTag.isEmpty && d.processTag r == q.requesterProcessTag

def samePreferredDevice (r : DirectoryRecord) (q : DirectoryQuery) : Bool :=
  q.hasPreferredDevice && r.device == q.preferredDevice && !r.device.isNull

def exactGeneration (d : Directory) (r : DirectoryRecord) (q : DirectoryQuery) : F :=
  if q.exactStateGeneration then indicator (r.stateGeneration == q.stateGeneration)
  else
    match d.currentGen r.stateId with
    | some g => indicator (r.stateGeneration == g)
    | none => one

/-- Current records of the same state and generation. -/
def replicaCount (d : Directory) (r : DirectoryRecord) : UInt32 :=
  .ofNat (d.records.countP fun x =>
    x.current && x.stateId == r.stateId && x.stateGeneration == r.stateGeneration)

def factor (kind : RankingFactorKind) (weight : F64) (value : F) (note : String) :
    RankingFactor F :=
  { kind := kind
    weight := ofBits weight
    value := value
    contribution := mul (ofBits weight) value
    note := ascii note }

def scoreFactors (d : Directory) (r : DirectoryRecord) (q : DirectoryQuery) :
    List (RankingFactor F) :=
  let p := d.policy
  let lat : F := ofBits r.estimate.estimatedLatencyNs
  let bw : F := ofBits r.estimate.estimatedBandwidthBytesPerS
  let tb : F := ofNat r.estimate.transferBytes.toNat
  [factor .exactGeneration p.exactGenerationW (d.exactGeneration r q)
      "state generation matches current",
    factor .sameProcess p.sameProcessW (indicator (d.sameProcess r q)) "process-local",
    factor .sameDevice p.sameDeviceW (indicator (samePreferredDevice r q)) "same device",
    factor .sameNode p.sameNodeW
      (indicator (!q.requesterNode.isNull && r.node == q.requesterNode)) "same node",
    factor .sameNuma p.sameNumaW (indicator (r.estimate.locality == .sameNuma)) "numa locality",
    factor .domainPreference p.domainPreferenceW
      (indicator (q.preferredDomains.contains r.domain)) "preferred domain",
    factor .reachability p.reachabilityW (nr r.reachability) "reachability",
    factor .health p.healthW (nh r.health) "health",
    factor .freshness p.freshnessW (nf r.freshness) "freshness",
    factor .integrity p.integrityW (ni r.integrity) "integrity",
    factor .latency p.latencyW
      (if le lat zero then zero else inverse (div lat (ofNat 10000000))) "estimated latency",
    factor .bandwidth p.bandwidthW
      (if le bw zero then zero else min (div bw (ofNat 10000000000)) one) "bandwidth",
    factor .transferBytes p.transferBytesW
      (if beq tb zero then one else inverse (div tb (ofNat 10000000))) "transfer bytes",
    factor .staging p.stagingW
      (inverse (div (ofNat r.estimate.stagingSteps.toNat) (ofNat 5))) "staging steps",
    factor .restore p.restoreW (indicator (!r.estimate.restoreRequired)) "restore requirement",
    factor .replicaDiversity p.replicaDiversityW
      (if d.replicaCount r > 1 then one else half) "replica diversity",
    factor .policyPreference p.policyPreferenceW half "policy preference"]

/-- `total`, added up in the order of the factors. -/
def totalScore (fs : List (RankingFactor F)) : F :=
  fs.foldl (fun total f => add total f.contribution) zero

def candidateOf (d : Directory) (q : DirectoryQuery) (r : DirectoryRecord) : Candidate F :=
  { record := r
    factors := d.scoreFactors r q
    score := totalScore (d.scoreFactors r q) }

def candidateLess (a b : Candidate F) : Bool :=
  if !beq a.score b.score then lt b.score a.score
  else if a.record.recordId != b.record.recordId then
    a.record.recordId.value < b.record.recordId.value
  else if a.record.location != b.record.location then
    a.record.location.value < b.record.location.value
  else if a.record.replica != b.record.replica then
    a.record.replica.value < b.record.replica.value
  else if a.record.domain != b.record.domain then
    toByte a.record.domain < toByte b.record.domain
  else a.record.cache.value < b.record.cache.value

/-! ## 7. Explanation -/

def explainRejection (rej : Rejection) : List ExplanationEntry :=
  [⟨"rejection", s!"ReplicaId {rej.replica.str} rejected because {rej.reason.str}."⟩]

def explainCandidateLine (i : Nat) (c : Candidate F) : ExplanationEntry :=
  ⟨"candidate",
    s!"Candidate {i}: ReplicaId {c.record.replica.str}" ++
      s!" StateGeneration {c.record.stateGeneration.str} domain {c.record.domain.str}" ++
      s!" integrity {c.record.integrity.str} freshness {c.record.freshness.str}" ++
      s!" reachability {c.record.reachability.str} score {text c.score}"⟩

def explainQuery (q : DirectoryQuery) (r : QueryResult F) : List ExplanationEntry :=
  let head := s!"Query {q.queryId.str} returned {r.outcome.str}"
  (if r.candidates.isEmpty then [⟨"query", head ++ ": no eligible current candidate."⟩]
    else
      ⟨"query", head ++ s!" with {r.candidates.length} candidate(s)."⟩ ::
        r.candidates.mapIdx explainCandidateLine) ++
    r.rejections.flatMap explainRejection

/-! ## 8. The query -/

/-- Does the best candidate count as local? -/
def isLocal (d : Directory) (q : DirectoryQuery) (r : DirectoryRecord) : Bool :=
  r.estimate.locality == .sameProcess || d.sameProcess r q || samePreferredDevice r q

/-- The outcome when no candidate is left: the gravest kind of rejection names it. -/
def emptyOutcome (rejections : List Rejection) (baseMatch : Nat) : QueryOutcome :=
  let met (reasons : List RejectionReason) : Bool :=
    rejections.any fun rj => reasons.contains rj.reason
  if met [.corrupt, .missingBytes] then .corruptOnly
  else if met [.unreachable, .reachabilityBelowRequirement] then .unreachableOnly
  else if met [.staleRecord, .freshnessBelowRequirement] then .staleOnly
  else if met [.incompatible] then .incompatibleOnly
  else if met [.missingRequiredEvidence] || baseMatch > 0 then .insufficientEvidence
  else .notFound

/-- The records the loop looks at: identity matches, and current whatever the query says. -/
def considered (q : DirectoryQuery) (r : DirectoryRecord) : Bool :=
  identifyMatches r q && !(q.currentOnly && !r.current) && r.current

/-- `query_impl` over the positions `idx`; the source reads `records_[i]` unchecked, here a
    position past the end gives no record. -/
def queryImpl (d : Directory) (q : DirectoryQuery) (idx : List Nat) : QueryResult F :=
  let scanned := (unique (idx.mergeSort (· ≤ ·))).filterMap fun i => d.records[i]?
  let matched := scanned.filter (considered q)
  let rejections := matched.filterMap fun r => (hardReject r q).map (rejectionOf r)
  let eligible := matched.filter fun r => (hardReject r q).isNone
  let ranked := (eligible.map (d.candidateOf q)).mergeSort fun a b => !candidateLess b a
  let res : QueryResult F :=
    { queryId := q.queryId
      rejections := rejections
      matchedScanCount := .ofNat ranked.length }
  match ranked with
  | [] => { res with outcome := emptyOutcome rejections matched.length }
  | c :: cs =>
      { res with
        candidates := { c with selected := true } :: cs
        selectedIndex := 0
        outcome :=
          if !cs.isEmpty then .foundMultiple
          else if d.isLocal q c.record then .foundLocal
          else .foundRemote }

/-- The accounting of one query. -/
def accountQuery (d : Directory) (q : DirectoryQuery) (res : QueryResult F) : Accounting :=
  let a := { d.accounting with queries := d.accounting.queries + 1 }
  match res.candidates with
  | c :: _ =>
      if d.isLocal q c.record then { a with localHits := a.localHits + 1 }
      else { a with remoteHits := a.remoteHits + 1 }
  | [] =>
      if res.outcome == .notFound || res.outcome == .insufficientEvidence then
        { a with misses := a.misses + 1 }
      else if res.outcome == .staleOnly then
        { a with staleOnlyOutcomes := a.staleOnlyOutcomes + 1 }
      else if res.outcome == .unreachableOnly then
        { a with unreachableOnlyOutcomes := a.unreachableOnlyOutcomes + 1 }
      else a

/-- The positions `query` hands on: the bucket of the state, in the order the multimap gives it,
    or all positions. -/
def queryPositions (order : Enumeration Nat) (q : DirectoryQuery) (d : Directory) : List Nat :=
  if q.exactState then
    order.order ((d.indexes.byState.filter fun e => e.1 == q.state).map Prod.snd)
  else List.range d.records.length

/-- `query`. -/
def query (order : Enumeration Nat) (q : DirectoryQuery) (d : Directory) :
    Result (QueryResult F) × Directory :=
  let d := d.ensureIndexes
  let res : QueryResult F := d.queryImpl q (queryPositions order q d)
  (.ok { res with explanation := explainQuery q res },
    { d with accounting := d.accountQuery q res })

/-- `query_scan`. -/
def queryScan (q : DirectoryQuery) (d : Directory) : QueryResult F :=
  let res : QueryResult F := d.queryImpl q (List.range d.records.length)
  { res with explanation := explainQuery q res }

end Directory

end CacheDirectory
