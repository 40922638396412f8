/-
  File:      CacheDirectory/Wire/Messages.lean
  Subject:   THE OTHER MESSAGES ON THE WIRE.

  Beside the record and the query result there are some fifteen payloads. Each has a writer and a
  reader of its own, and in each of them the reader assigns every field the writer wrote.

  * `rd..._decodes` -- one reader against its writer, for any object read into;
  * `rdQuery_decodes` -- the query, with its two counted lists and its optional digest;
  * `rdUpdate_decodes` -- the four evidence updates, which are one reader;
  * `messages_roundTrip` -- every message comes back from a fresh object as it was sent, a digest
    that is not flagged as zeros.
-/
import CacheDirectory.Wire.Records

namespace CacheDirectory

open Library ByteReader Protocol

/-! ## 1. Answers and sessions -/

theorem rdAck_fits {a : AckResult} (h : a.message.length < 2 ^ 64) :
    Decodes (a.message.length ≤ 1 <<< 20) rdAck (serializeAck a) a := by
  unfold rdAck serializeAck
  refine .step (u8_decodes _) <| .done (string_decodes h _) <| .pure ?_
  simp only [flag_ne_zero]

theorem rdAck_decodes {a : AckResult} (h : a.message.length ≤ 1 <<< 20) :
    Decodes True rdAck (serializeAck a) a :=
  (rdAck_fits (Nat.lt_of_le_of_lt h (by decide))).of_iff (iff_true_intro h)

theorem rdError_decodes (e : DirectoryError) {msg : Bytes} (h : msg.length ≤ 1 <<< 20) :
    Decodes True rdError (serializeError e msg) (e, msg) := by
  unfold rdError serializeError
  refine .step (u8_decodes _) <| .done (string_within h (by decide)) <| .pure ?_
  simp only [ofByte_toByte]

theorem rdHello_decodes (p : WorkerSession) {s : WorkerSession} (h : s.tag.length ≤ 1 <<< 20) :
    Decodes True (rdHello p) (serializeHello s) s := by
  unfold rdHello serializeHello
  simp only [List.flatten_cons, List.flatten_nil]
  refine .step (u64_decodes _) <| .step (u64_decodes _) <| .step (u64_decodes _) <|
    .step (string_within h (by decide)) <| .step (u8_decodes _) <| .step (u64_decodes _) <|
    .pure ?_
  simp only [flag_ne_zero]

theorem rdEpochReply_decodes (epoch : CoordinatorEpoch) :
    Decodes True rdEpochReply (serializeEpochReply epoch) epoch := by
  unfold rdEpochReply serializeEpochReply
  exact .done (u64_decodes _) <| .pure rfl

/-! ## 2. Queries -/

/-- What the reader of a query accepts: its bounds on two strings and on two counts. -/
structure DirectoryQuery.Sendable (q : DirectoryQuery) : Prop where
  nameSpace : q.nameSpace.length ≤ 1 <<< 20
  allowedDomains : q.allowedDomains.length ≤ 1024
  preferredDomains : q.preferredDomains.length ≤ 1024
  requesterProcessTag : q.requesterProcessTag.length ≤ 1 <<< 20

/-- A query as it arrives in `x`: a digest that is not required stays that of `x`, and the
    domains are pushed behind those of `x`. -/
def queryOnWire (x q : DirectoryQuery) : DirectoryQuery :=
  { q with
    contentDigest := if q.requireContentDigest then q.contentDigest else x.contentDigest
    allowedDomains := x.allowedDomains ++ q.allowedDomains
    preferredDomains := x.preferredDomains ++ q.preferredDomains }

theorem rdDomain_decodes (d : MemoryDomain) :
    Decodes True rdDomain (ByteWriter.enum d) d := by
  unfold rdDomain
  refine .done (u8_decodes _) <| .pure ?_
  rw [ofByte_toByte]

theorem rdDomains_decodes {ds : List MemoryDomain} (h : ds.length ≤ 1024) :
    Decodes True (rdCounted 1024 rdDomain) (wrDomains ds) ds := by
  have hall := rdCounted_decodes 1024 id (Nat.lt_of_le_of_lt h (by decide))
    fun d (_ : d ∈ ds) => rdDomain_decodes d
  rw [List.map_id] at hall
  exact hall.of_iff (iff_true_intro ⟨h, fun _ _ => trivial⟩)

/-- **The query reader against its writer.** -/
theorem rdQuery_decodes (x : DirectoryQuery) {q : DirectoryQuery} (h : q.Sendable) :
    Decodes True (rdQuery x) (serializeQuery q) (queryOnWire x q) := by
  unfold rdQuery serializeQuery
  simp only [List.flatten_cons, List.flatten_nil]
  refine .step (u64_decodes _) <| .step (u8_decodes _) <| .step (u64_decodes _) <|
    .step (u8_decodes _) <| .step (u64_decodes _) <| .step (u8_decodes _) <|
    .step (u8_decodes _) <| .step (string_within h.nameSpace (by decide)) <|
    .step (u8_decodes _) <| .step (optional_decodes _ _ (digest_decodes _)) <|
    .step (u8_decodes _) <| .step (u64_decodes _) <| .step (u8_decodes _) <|
    .step (u8_decodes _) <| .step (u8_decodes _) <| .step (u8_decodes _) <|
    .step (u8_decodes _) <| .step (u8_decodes _) <| .step (u8_decodes _) <|
    .step (u8_decodes _) <| .step (rdDomains_decodes h.allowedDomains) <|
    .step (rdDomains_decodes h.preferredDomains) <| .step (u8_decodes _) <|
    .step (f64_decodes _) <| .step (u8_decodes _) <| .step (u64_decodes _) <|
    .step (u8_decodes _) <| .step (u64_decodes _) <|
    .step (string_within h.requesterProcessTag (by decide)) <| .step (u64_decodes _) <|
    .step (u32_decodes _) <| .step (u8_decodes _) <| .pure ?_
  simp only [flag_ne_zero, ofByte_toByte]
  rfl

/-! ## 3. Updates, leases, invalidations -/

/-- The reader of an evidence update, whatever the evidence is. -/
theorem rdUpdate_decodes {ε : Type} [ByteEnum ε] (id : DirectoryRecordId) (e : ε)
    (env : AuthorityEnvelope) : Decodes True (rdUpdate ε) (wrUpdate id e env) (id, e, env) := by
  unfold rdUpdate wrUpdate
  simp only [List.flatten_cons, List.flatten_nil]
  refine .step (u64_decodes _) <| .step (u8_decodes _) <| .step (rAuth_decodes _ _) <| .pure ?_
  simp only [ofByte_toByte]

theorem rdRenewLease_decodes (m : RenewLeaseMsg) :
    Decodes True rdRenewLease (serializeRenewLease m) m := by
  unfold rdRenewLease serializeRenewLease
  exact .step (u64_decodes _) <| .done (rAuth_decodes _ _) <| .pure rfl

theorem rdInvalidate_decodes {m : InvalidateMsg} (h : m.reason.length ≤ 1 <<< 20) :
    Decodes True rdInvalidate (serializeInvalidate m) m := by
  unfold rdInvalidate serializeInvalidate
  simp only [List.flatten_cons, List.flatten_nil]
  exact .step (u8_decodes _) <| .step (u64_decodes _) <| .step (u64_decodes _) <|
    .step (rAuth_decodes _ _) <| .step (string_within h (by decide)) <| .pure rfl

/-! ## 4. The round trip -/

theorem deserializeLocation_serialized {l : LocationDescriptor}
    (ht : l.processTag.length ≤ 1 <<< 20) (hk : l.locator.key.length ≤ 1 <<< 24) :
    deserializeLocation {} (serializeLocation l) = .ok (locationAsRead {} l) := by
  have hloc := rLoc_decodes {} l (Nat.lt_of_le_of_lt ht (by decide))
    (Nat.lt_of_le_of_lt hk (by decide))
  exact (hloc.runAll ()).1 ⟨ht, hk⟩

theorem deserializeTombstone_serialized {t : TombstoneRecord} (h : t.reason.length ≤ 1 <<< 20) :
    deserializeTombstone {} (serializeTombstone t) = .ok t :=
  ((rTomb_decodes {} t (Nat.lt_of_le_of_lt h (by decide))).runAll ()).1 h

/-- An evidence update comes back, whatever message `g` is made of it. -/
theorem rdUpdate_serialized {ε μ : Type} [ByteEnum ε] (id : DirectoryRecordId) (e : ε)
    (env : AuthorityEnvelope) (g : DirectoryRecordId × ε × AuthorityEnvelope → μ) :
    ((rdUpdate ε).runAll () (wrUpdate id e env)).map g = .ok (g (id, e, env)) := by
  rw [(rdUpdate_decodes id e env).runAll_ok ()]
  rfl

/-- **The round trip**: within the readers' bounds every message, read into a fresh object, comes
    back as it was sent, the payload read to its end. Only a digest that is not flagged is not
    sent; it comes back as zeros. -/
theorem messages_roundTrip :
    (∀ c : CacheDescriptor, deserializeCache {} (serializeCache c) = .ok c) ∧
    (∀ l : LocationDescriptor, l.processTag.length ≤ 1 <<< 20 →
      l.locator.key.length ≤ 1 <<< 24 →
      deserializeLocation {} (serializeLocation l) =
        .ok { l with
          contentDigest := if l.contentDigestKnown then l.contentDigest
            else Digest.Sha256.zero }) ∧
    (∀ r : ReplicaDescriptor, deserializeReplica {} (serializeReplica r) = .ok r) ∧
    (∀ t : TombstoneRecord, t.reason.length ≤ 1 <<< 20 →
      deserializeTombstone {} (serializeTombstone t) = .ok t) ∧
    (∀ s : WorkerSession, s.tag.length ≤ 1 <<< 20 →
      deserializeHello {} (serializeHello s) = .ok s) ∧
    (∀ q : DirectoryQuery, q.Sendable →
      deserializeQuery {} (serializeQuery q) =
        .ok { q with
          contentDigest := if q.requireContentDigest then q.contentDigest
            else Digest.Sha256.zero }) ∧
    (∀ m : UpdateHealthMsg, deserializeUpdateHealth (serializeUpdateHealth m) = .ok m) ∧
    (∀ m : UpdateRefreshMsg, deserializeUpdateFreshness (serializeUpdateFreshness m) = .ok m) ∧
    (∀ m : UpdateReachMsg,
      deserializeUpdateReachability (serializeUpdateReachability m) = .ok m) ∧
    (∀ m : UpdateIntegrityMsg,
      deserializeUpdateIntegrity (serializeUpdateIntegrity m) = .ok m) ∧
    (∀ m : RenewLeaseMsg, deserializeRenewLease (serializeRenewLease m) = .ok m) ∧
    (∀ m : InvalidateMsg, m.reason.length ≤ 1 <<< 20 →
      deserializeInvalidate (serializeInvalidate m) = .ok m) ∧
    (∀ a : AckResult, a.message.length ≤ 1 <<< 20 →
      deserializeAck (serializeAck a) = .ok a) ∧
    (∀ (e : DirectoryError) (msg : Bytes), msg.length ≤ 1 <<< 20 →
      deserializeError (serializeError e msg) = .ok (e, msg)) ∧
    (∀ path : Bytes, path.length ≤ 1 <<< 20 →
      deserializePath (serializePath path) = .ok path) ∧
    (∀ epoch : CoordinatorEpoch,
      deserializeEpochReply (serializeEpochReply epoch) = .ok epoch) := by
  refine ⟨fun c => ?cache, fun l ht hk => ?location, fun r => ?replica, fun t h => ?tombstone,
    fun s h => ?hello, fun q h => ?query, fun m => ?health, fun m => ?freshness,
    fun m => ?reachability, fun m => ?integrity, fun m => ?renewLease, fun m h => ?invalidate,
    fun a h => ?ack, fun e msg h => ?error, fun path h => ?path, fun epoch => ?epochReply⟩
  case cache => exact (rCache_decodes {} c).runAll_ok ()
  case location => exact deserializeLocation_serialized ht hk
  case replica => exact (rRep_decodes {} r).runAll_ok ()
  case tombstone => exact deserializeTombstone_serialized h
  case hello => exact (rdHello_decodes {} h).runAll_ok ()
  case query => exact (rdQuery_decodes {} h).runAll_ok ()
  case health => exact rdUpdate_serialized m.id m.health m.env _
  case freshness => exact rdUpdate_serialized m.id m.freshness m.env _
  case reachability => exact rdUpdate_serialized m.id m.reachability m.env _
  case integrity => exact rdUpdate_serialized m.id m.integrity m.env _
  case renewLease => exact (rdRenewLease_decodes m).runAll_ok ()
  case invalidate => exact (rdInvalidate_decodes h).runAll_ok ()
  case ack => exact (rdAck_decodes h).runAll_ok ()
  case error => exact (rdError_decodes e h).runAll_ok ()
  case path => exact (string_within h (by decide)).runAll_ok ()
  case epochReply => exact (rdEpochReply_decodes epoch).runAll_ok ()

/-- A query for copies on one node, preferred in host memory. -/
def sentQuery : DirectoryQuery :=
  { allowedDomains := [.hostPinned, .hostMemory]
    preferredDomains := [.hostMemory]
    requesterProcessTag := [119, 49] }

theorem messages_roundTrip_sent :
    deserializeLocation {} (serializeLocation { locator := ⟨[47]⟩ }) =
        .ok { locator := ⟨[47]⟩ } ∧
      deserializeTombstone {} (serializeTombstone { reason := [120] }) = .ok { reason := [120] } ∧
      deserializeHello {} (serializeHello { tag := [119] }) = .ok { tag := [119] } ∧
      deserializeQuery {} (serializeQuery sentQuery) = .ok sentQuery ∧
      deserializeInvalidate (serializeInvalidate ⟨1, 7, 2, {}, [120]⟩) =
        .ok ⟨1, 7, 2, {}, [120]⟩ ∧
      deserializeAck (serializeAck {}) = .ok {} ∧
      deserializeError (serializeError .tombstoned [120]) = .ok (.tombstoned, [120]) ∧
      deserializePath (serializePath [47]) = .ok [47] := by
  obtain ⟨-, hlocation, -, htombstone, hhello, hquery, -, -, -, -, -, hinvalidate, hack, herror,
    hpath, -⟩ := messages_roundTrip
  exact ⟨hlocation _ (by decide) (by decide), htombstone _ (by decide), hhello _ (by decide),
    hquery _ ⟨by decide, by decide, by decide, by decide⟩, hinvalidate _ (by decide),
    hack _ (by decide), herror _ _ (by decide), hpath _ (by decide)⟩

end CacheDirectory
