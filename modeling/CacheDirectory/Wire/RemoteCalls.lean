/-
  File:      CacheDirectory/Wire/RemoteCalls.lean
  Subject:   A REMOTE CALL IS A LOCAL CALL, AS FAR AS THE WIRE CARRIES IT.

  The wire drops some of the arguments (`carried`: four fields of a record's estimate) and some
  of the value (`Value.onWire`: the explanation and the summary of a query), and lets only some
  calls through (`Fits`). But for that, what a client gets from a coordinator is what it would
  get from the directory itself, had it made the call there: what the wire carries of the value
  the carried call returns, or the same failure, and the directory that call leaves.

  * `run` -- a call made on the directory itself;
  * `performed` -- one call, in every state a directory reaches;
  * `RemoteSystem`, `LocalSystem` -- any number of clients of one coordinator, and of one
    directory;
  * `remote_is_local` -- for every interleaving of their calls all of them read the same.
-/
import CacheDirectory.Model.Client
import CacheDirectory.Wire.InStep

namespace CacheDirectory

open Library Protocol Directory CoordinatorServer

namespace Client

/-! ## 1. The calls on the directory -/

/-- An operation that is only acknowledged. -/
def acked {α : Type} (r : Result α × Directory) : Result Value × Directory :=
  (r.1.map fun _ => .done, r.2)

/-- A call made on the directory itself. -/
def Call.run (F : Type) [WireDouble F] (w : Surroundings) (call : Call) (d : Directory) :
    Result Value × Directory :=
  match call with
  | .hello session =>
      let (r, d) := d.registerWorkerSession session
      (r.map fun _ => .epoch d.epoch, d)
  | .registerCache cache => acked (d.registerCache cache)
  | .registerLocation loc => acked (d.registerLocation loc)
  | .registerReplica rep => acked (d.registerReplica rep)
  | .registerEntry record => acked (d.registerEntry record w.clk)
  | .query q =>
      let (r, d) := d.query (F := F) w.bucket q
      (r.map fun answer => .result answer.onWire, d)
  | .updateHealth m => acked (d.updateHealth m.id m.health m.env (w.clk 0))
  | .updateFreshness m => acked (d.updateFreshness m.id m.freshness m.env (w.clk 0))
  | .updateReachability m => acked (d.updateReachability m.id m.reachability m.env (w.clk 0))
  | .updateIntegrity m => acked (d.updateIntegrity m.id m.integrity m.env (w.clk 0))
  | .renewLease m => acked (d.renewLease m.leaseId m.env (w.clk 0))
  | .invalidate msg =>
      match msg.kind.toNat with
      | 0 => acked (d.invalidateState ⟨msg.target⟩ ⟨msg.generation⟩ msg.env msg.reason w.clk)
      | 1 => acked (d.invalidateCache ⟨msg.target⟩ msg.env msg.reason w.clk)
      | 2 => acked (d.invalidateReplica ⟨msg.target⟩ msg.env msg.reason w.clk)
      | 3 => acked (d.invalidateLocation ⟨msg.target⟩ msg.env msg.reason w.clk)
      | 4 => acked (d.invalidateWorkerBoot ⟨msg.target⟩ msg.env msg.reason w.clk)
      | _ => (.error { error := .none }, d)
  | .tombstone t => acked (d.tombstone t)
  | .save path => acked (d.save w.maps w.written path, d)
  | .recover path => ((d.recover (w.fileAt path)).map acked).getD (.error { error := .none }, d)

/-- What the wire carries of the arguments. -/
def Call.carried : Call → Call
  | .registerLocation loc => .registerLocation (locationAsRead {} loc)
  | .registerEntry record => .registerEntry (recordOnWire {} record)
  | .query q => .query (queryOnWire {} q)
  | call => call

/-- What the wire carries of the value, read into the object of the caller. -/
def Value.onWire (result : QueryResult F64) : Value → Value
  | .result r => .result (queryResultOnWire result r)
  | v => v

/-- What a remote call reports of a local one. -/
def reported (result : QueryResult F64) (r : Result Value) (c : LastError) : Outcome Value :=
  match r with
  | .ok v => (.ok (v.onWire result), c)
  | .error f => (.error (ascii f.errorText), { error := f.error, text := ascii f.errorText })

/-- The call and its answer get through: the two kinds the decoder refuses do not, the readers
    have their bounds, and the answer needs room. -/
def Call.Fits (d : Directory) : Call → Prop
  | .hello session => session.tag.length ≤ 1 <<< 20
  | .registerLocation _ => False
  | .registerReplica _ => False
  | .registerEntry record => record.nameSpace.length ≤ 1 <<< 20
  | .query q => q.Sendable ∧ ResultFits d (queryOnWire {} q)
  | .invalidate msg =>
      msg.kind.toNat ≤ 4 ∧ msg.reason.length ≤ 1 <<< 20 ∧
        (msg.env.epoch = d.epoch → noticeLength d msg + msg.reason.length ≤ 2 ^ 20)
  | .tombstone t => t.reason.length ≤ 1 <<< 20
  | .save path => path.length ≤ 1 <<< 20
  | .recover path => path.length ≤ 1 <<< 20
  | _ => True

/-! ## 2. What the client makes of the answers -/

section Answers

variable {unset : DirectoryError × Bytes} {x : QueryResult F64} {c : LastError}

/-- The lines for an ERROR frame report the failure. -/
theorem onError_failure {f : Failure} (h : f.Terse) (r : QueryResult F64) :
    onError unset (respondFailure f).payload = reported r (.error f) c := by
  have hread : deserializeError (respondFailure f).payload = .ok (f.error, ascii f.errorText) :=
    (rdError_decodes f.error h).runAll_ok ()
  unfold onError reported
  rw [hread]

theorem sendWaitAck_failure {f : Failure} (h : f.Terse) :
    sendWaitAck unset (.ok (respondFailure f)) c = reported x (.error f) c := by
  unfold sendWaitAck
  exact onError_failure h x

theorem sendWaitAck_ack {m : Bytes} (h : m.length ≤ 1 <<< 20) :
    sendWaitAck unset (.ok (respondAck { message := m })) c = reported x (.ok .done) c := by
  have hread : deserializeAck (respondAck { message := m }).payload = .ok { message := m } :=
    (rdAck_decodes h).runAll_ok ()
  unfold sendWaitAck
  dsimp only
  rw [if_pos (show (respondAck { message := m }).kind = .ack from rfl), hread]
  rfl

/-- One frame answers the call, it can be received, and the client makes of it what the call
    returns on the directory; the directory is the one behind that call. -/
def Performs (call : Call) (unset : DirectoryError × Bytes) (x : QueryResult F64) (c : LastError)
    (out : List Frame × Directory) (r : Result Value × Directory) : Prop :=
  ∃ a, out = ([a], r.2) ∧ a.Passes ∧ call.perform unset x (.ok a) c = reported x r.1 c

/-- **The calls that wait for an acknowledgement.** -/
theorem performs_serve {α β : Type} {d : Directory} {call : Call} {parsed : Deserialized α} {m : α}
    (hparsed : parsed = .ok m) {malformed : String}
    {op : α → Directory → Result β × Directory} {done : β → Bytes}
    (hawaits : ∀ resp, call.perform unset x resp c = sendWaitAck unset resp c)
    (hdone : ∀ b, (done b).length ≤ 1 <<< 20)
    (hterse : ∀ f, (op m d).1 = .error f → f.Terse) :
    Performs call unset x c (serve parsed malformed op done d) (acked (op m d)) := by
  subst hparsed
  unfold serve acked
  dsimp only
  rcases hout : op m d with ⟨f | b, d'⟩
  · have hf := hterse f (congrArg Prod.fst hout)
    exact ⟨_, rfl, passes_failure hf, (hawaits _).trans (sendWaitAck_failure hf)⟩
  · exact ⟨_, rfl, passes_short (hdone b), (hawaits _).trans (sendWaitAck_ack (hdone b))⟩

end Answers

/-! ## 3. One call -/

section Calls

variable {F : Type} [WireDouble F] {w : Surroundings} {d : Directory}
  {unset : DirectoryError × Bytes} {x : QueryResult F64} {c : LastError}

theorem performs_hello (unset : DirectoryError × Bytes) (x : QueryResult F64) (c : LastError)
    {session : WorkerSession} (h : session.tag.length ≤ 1 <<< 20) (handler : Handler) :
    Performs (.hello session) unset x c
        ((CoordinatorServer.hello (serializeHello session) handler d).1,
          (CoordinatorServer.hello (serializeHello session) handler d).2.2)
        (Call.run F w (.hello session) d) ∧
      (CoordinatorServer.hello (serializeHello session) handler d).2.1 =
        if (d.registerWorkerSession session).1.isOk then { boot := session.boot, haveBoot := true }
        else handler := by
  have hread : deserializeHello {} (serializeHello session) = .ok session :=
    (rdHello_decodes {} h).runAll_ok ()
  unfold CoordinatorServer.hello Call.run
  rw [hread]
  dsimp only
  rcases hout : d.registerWorkerSession session with ⟨f | b, d'⟩
  · have hf : f.Terse := terse_guarded (congrArg Prod.fst hout)
    exact ⟨⟨_, rfl, passes_failure hf, onError_failure hf x⟩, rfl⟩
  · have hreply : deserializeEpochReply (serializeEpochReply d'.epoch) = .ok d'.epoch :=
      (rdEpochReply_decodes d'.epoch).runAll_ok ()
    have hack : ¬ toByte MessageKind.ack > toByte MessageKind.error := by decide
    refine ⟨⟨_, rfl, ⟨hack, (readable_epochReply (x := x) d'.epoch).size⟩, ?_⟩, rfl⟩
    rw [Call.perform_hello]
    unfold Client.hello
    dsimp only
    rw [if_neg (not_not_intro rfl), hreply]
    rfl

/-- An answer within the limits arrives. -/
theorem result_arrives (d : Directory) {q : DirectoryQuery} (x : QueryResult F64)
    (h : ResultFits d q) :
    deserializeQueryResult x (serializeQueryResult (scanOnWire F d q)) =
      .ok (queryResultOnWire x (scanOnWire F d q)) := by
  have hcands := length_candidates (F := F) d q h.size
  have hrejs := h.rejections
  rw [← length_rejections (F := F)] at hrejs
  have hname : ∀ c ∈ (scanOnWire F d q).candidates, c.record.nameSpace.length ≤ 2 ^ 20 := by
    intro c hc
    have hmem := (records_scanOnWire (F := F) d q).mem_iff.mp (List.mem_map_of_mem hc)
    rw [List.mem_filter, decide_eq_true_iff] at hmem
    exact h.nameSpaces _ hmem.1 hmem.2
  have hnotes : ∀ c ∈ (scanOnWire F d q).candidates, ∀ f ∈ c.factors,
      f.note.length ≤ 2 ^ 20 := by
    intro c hc f hf
    have hone : 33 + f.note.length ≤ _ :=
      List.le_sum_of_mem (List.mem_map_of_mem (f := fun f => 33 + f.note.length) hf)
    rw [(factors_scanOnWire hc).2] at hone
    omega
  refine ((rdQueryResult_fits x (Nat.lt_of_le_of_lt hcands (by decide))
    (Nat.lt_of_le_of_lt hrejs (by decide)) fun c hc => rdCandidate_fits
      (Nat.lt_of_le_of_lt (hname c hc) (by decide)) ?_ (hnotes c hc)).runAll ()).1
        ⟨⟨hcands, hname⟩, hrejs⟩
  rw [(factors_scanOnWire hc).1]
  decide

theorem performs_query (hd : d.IndexFits) {q : DirectoryQuery} (hq : q.Sendable)
    (hfits : ResultFits d (queryOnWire {} q)) :
    Performs (.query q) unset x c (CoordinatorServer.query F w (serializeQuery q) d)
      (Call.run F w (.query (queryOnWire {} q)) d) := by
  have hread : deserializeQuery {} (serializeQuery q) = .ok (queryOnWire {} q) :=
    (rdQuery_decodes {} hq).runAll_ok ()
  have hanswer := query_answer (F := F) hd w.bucket (queryOnWire {} q)
  have hreadable := (readable_result_iff (F := F) d (queryOnWire {} q) x).mpr hfits
  unfold CoordinatorServer.query Call.run
  rw [hread]
  dsimp only
  rw [hanswer]
  have hresult : ¬ toByte MessageKind.queryResult > toByte MessageKind.error := by decide
  refine ⟨_, rfl, ⟨hresult, hreadable.size⟩, ?_⟩
  rw [Call.perform_query]
  unfold Client.query
  dsimp only
  rw [if_neg (not_not_intro rfl), show valueOf (.ok (d.queryScan (F := F) (queryOnWire {} q))) =
    d.queryScan (queryOnWire {} q) from rfl, ← scanOnWire, result_arrives d x hfits]
  rfl

theorem performs_invalidate {msg : InvalidateMsg} (hkind : msg.kind.toNat ≤ 4)
    (hreason : msg.reason.length ≤ 1 <<< 20)
    (hroom : msg.env.epoch = d.epoch → noticeLength d msg + msg.reason.length ≤ 2 ^ 20) :
    Performs (.invalidate msg) unset x c
      (CoordinatorServer.invalidate w (serializeInvalidate msg) d)
      (Call.run F w (.invalidate msg) d) := by
  have hread : deserializeInvalidate (serializeInvalidate msg) = .ok msg :=
    (rdInvalidate_decodes hreason).runAll_ok ()
  have hawaits (resp : Except Bytes Frame) :
      (Call.invalidate msg).perform unset x resp c = sendWaitAck unset resp c := rfl
  have hlocal : Call.run F w (.invalidate msg) d = acked (invalidateByKind w msg d).2 := by
    unfold Call.run invalidateByKind
    dsimp only
    generalize msg.kind.toNat = k at hkind
    rcases k with _ | _ | _ | _ | _ | k
    iterate 5 rfl
    omega
  rw [hlocal]
  unfold CoordinatorServer.invalidate
  rw [hread]
  dsimp only
  rcases invalidateByKind_spec (w := w) (d := d) msg hkind with
    ⟨_, hout⟩ | ⟨hepoch, r, d', hout, hlength⟩
  · rw [hout]
    have hterse : Failure.Terse ⟨.staleEpoch, "stale epoch"⟩ := by decide
    exact ⟨_, rfl, passes_failure hterse, (hawaits _).trans (sendWaitAck_failure hterse)⟩
  · rw [hout]
    have hshort : r.message.length ≤ 1 <<< 20 := by
      rw [hlength]
      exact hroom hepoch
    exact ⟨_, rfl, passes_short hshort, (hawaits _).trans (sendWaitAck_ack hshort)⟩

theorem performs_recover {path : Bytes} (h : path.length ≤ 1 <<< 20) :
    Performs (.recover path) unset x c (CoordinatorServer.recover w (serializePath path) d)
      (Call.run F w (.recover path) d) := by
  have hread : deserializePath (serializePath path) = .ok path :=
    (ByteReader.string_within h (by decide)).runAll_ok ()
  have hawaits (resp : Except Bytes Frame) :
      (Call.recover path).perform unset x resp c = sendWaitAck unset resp c := rfl
  unfold CoordinatorServer.recover Call.run
  rw [hread]
  dsimp only
  rcases hout : d.recover (w.fileAt path) with - | ⟨f | b, d'⟩
  · exact absurd hout (recover_ne_none _)
  · have hf := terse_recover hout
    exact ⟨_, rfl, passes_failure hf, (hawaits _).trans (sendWaitAck_failure hf)⟩
  · have hshort : (ascii "recovered").length ≤ 1 <<< 20 := by decide
    exact ⟨_, rfl, passes_short hshort, (hawaits _).trans (sendWaitAck_ack hshort)⟩

/-- What a handler remembers behind a call. -/
def Call.remembered (call : Call) (r : Result Value) (handler : Handler) : Handler :=
  match call with
  | .hello session => if r.isOk then { boot := session.boot, haveBoot := true } else handler
  | _ => handler

theorem isOk_map {α β : Type} (g : α → β) (r : Result α) : (r.map g).isOk = r.isOk := by
  cases r with
  | error f => rfl
  | ok a => rfl

/-- The kinds whose case leaves the handler alone. -/
theorem performs_kept {handler : Handler} {call : Call} {out : List Frame × Directory}
    {r : Result Value × Directory} (hperforms : Performs call unset x c out r)
    (hout : handle F w call.request handler d = (out.1, handler, out.2)) :
    Performs call unset x c
        ((handle F w call.request handler d).1, (handle F w call.request handler d).2.2) r ∧
      (handle F w call.request handler d).2.1 = handler := by
  rw [hout]
  exact ⟨hperforms, rfl⟩

/-- **A remote call is a local call**: in every state a directory reaches, for every call that fits
    the wire. -/
theorem performed (F : Type) [WireDouble F] {ops : List Operation} {d : Directory}
    (hd : Reached F ops d) (w : Surroundings) (handler : Handler)
    (unset : DirectoryError × Bytes) (x : QueryResult F64) (c : LastError) {call : Call}
    (hfits : call.Fits d) :
    Performs call unset x c
        ((handle F w call.request handler d).1, (handle F w call.request handler d).2.2)
        (call.carried.run F w d) ∧
      (handle F w call.request handler d).2.1 =
        call.remembered (call.carried.run F w d).1 handler := by
  cases call with
  | hello session =>
      obtain ⟨hperformed, hremembered⟩ :=
        performs_hello (F := F) (w := w) (d := d) unset x c hfits handler
      refine ⟨hperformed, hremembered.trans ?_⟩
      unfold Call.remembered Call.carried Call.run
      rw [isOk_map]
  | registerLocation loc => exact hfits.elim
  | registerReplica rep => exact hfits.elim
  | registerCache cache =>
      have hread : deserializeCache {} (serializeCache cache) = .ok cache :=
        (rCache_decodes {} cache).runAll_ok ()
      exact performs_kept (performs_serve hread (fun _ => rfl) (fun _ => by decide)
        fun _ hf => terse_guarded hf) rfl
  | registerEntry record =>
      have hread : deserializeRecord {} (serializeRecord record) = .ok (recordOnWire {} record) :=
        deserializeRecord_serialized hfits
      exact performs_kept (performs_serve hread (fun _ => rfl) (fun _ => by decide)
        fun _ => terse_registerEntry) rfl
  | query q =>
      exact performs_kept (performs_query (indexFits_reached hd) hfits.1 hfits.2) rfl
  | updateHealth m =>
      have hread : deserializeUpdateHealth (serializeUpdateHealth m) = .ok m :=
        rdUpdate_serialized m.id m.health m.env _
      exact performs_kept (performs_serve hread (fun _ => rfl) (fun _ => by decide)
        fun _ => terse_updateEvidence) rfl
  | updateFreshness m =>
      have hread : deserializeUpdateFreshness (serializeUpdateFreshness m) = .ok m :=
        rdUpdate_serialized m.id m.freshness m.env _
      exact performs_kept (performs_serve hread (fun _ => rfl) (fun _ => by decide)
        fun _ => terse_updateEvidence) rfl
  | updateReachability m =>
      have hread : deserializeUpdateReachability (serializeUpdateReachability m) = .ok m :=
        rdUpdate_serialized m.id m.reachability m.env _
      exact performs_kept (performs_serve hread (fun _ => rfl) (fun _ => by decide)
        fun _ => terse_updateEvidence) rfl
  | updateIntegrity m =>
      have hread : deserializeUpdateIntegrity (serializeUpdateIntegrity m) = .ok m :=
        rdUpdate_serialized m.id m.integrity m.env _
      exact performs_kept (performs_serve hread (fun _ => rfl) (fun _ => by decide)
        fun _ => terse_updateEvidence) rfl
  | renewLease m =>
      have hread : deserializeRenewLease (serializeRenewLease m) = .ok m :=
        (rdRenewLease_decodes m).runAll_ok ()
      exact performs_kept (performs_serve hread (fun _ => rfl) (fun _ => by decide)
        fun _ => terse_renewLease) rfl
  | invalidate msg =>
      exact performs_kept (performs_invalidate hfits.1 hfits.2.1 hfits.2.2) rfl
  | tombstone t =>
      have hread : deserializeTombstone {} (serializeTombstone t) = .ok t :=
        deserializeTombstone_serialized hfits
      exact performs_kept (performs_serve hread (fun _ => rfl) (fun _ => by decide)
        fun _ hf => terse_guarded hf) rfl
  | save path =>
      have hread : deserializePath (serializePath path) = .ok path :=
        (ByteReader.string_within hfits (by decide)).runAll_ok ()
      exact performs_kept (performs_serve hread (fun _ => rfl) (fun _ => by decide)
        fun _ hf => terse_save (d := d) (o := w.maps) hf) rfl
  | recover path => exact performs_kept (performs_recover hfits) rfl

end Calls

/-! ## 4. The size of a request -/

theorem length_wrUpdate {ε : Type} [ByteEnum ε] (id : DirectoryRecordId) (evidence : ε)
    (env : AuthorityEnvelope) : (wrUpdate id evidence env).length = 41 := by
  simp [wrUpdate]

theorem length_wrDomains (ds : List MemoryDomain) : (wrDomains ds).length = 4 + ds.length := by
  simp [wrDomains, List.length_flatMap]

/-- A query with both strings and both lists at their bounds is far from the limit. -/
theorem length_serializeQuery {q : DirectoryQuery} (h : q.Sendable) :
    (serializeQuery q).length ≤ maxPayload.toNat := by
  have hnameSpace : q.nameSpace.length ≤ 1048576 := h.nameSpace
  have hallowed := h.allowedDomains
  have hpreferred := h.preferredDomains
  have htag : q.requesterProcessTag.length ≤ 1048576 := h.requesterProcessTag
  unfold serializeQuery
  simp only [List.length_flatten, List.map_cons, List.map_nil, List.sum_cons, List.sum_nil,
    length_strong, length_flag, length_enum, length_string, length_optional, ByteWriter.bytes,
    List.Vector.toList_length, length_wrDomains, length_f64, length_u32, maxPayload_toNat,
    ← Nat.add_assoc]
  split
  · omega
  · omega

theorem recordSize_le {r : DirectoryRecord} (h : r.nameSpace.length ≤ 1 <<< 20) :
    recordSize r ≤ maxPayload.toNat := by
  unfold recordSize
  rw [maxPayload_toNat]
  split
  · split
    · omega
    · omega
  · split
    · omega
    · omega

/-- **A call that fits sends a frame the server receives.** -/
theorem passes_request {d : Directory} {call : Call} (h : call.Fits d) : call.request.Passes := by
  have hframe {kind : MessageKind} {payload : Bytes}
      (hlength : payload.length ≤ maxPayload.toNat)
      (hkind : ¬ toByte kind > toByte MessageKind.error) :
      Frame.Passes { kind := kind, payload := payload } := ⟨hkind, hlength⟩
  have hpath {path : Bytes} (hp : path.length ≤ 1 <<< 20) :
      (serializePath path).length ≤ maxPayload.toNat := by
    unfold serializePath
    rw [length_string, maxPayload_toNat]
    omega
  have hupdate {ε : Type} [ByteEnum ε] (id : DirectoryRecordId) (evidence : ε)
      (env : AuthorityEnvelope) : (wrUpdate id evidence env).length ≤ maxPayload.toNat := by
    rw [length_wrUpdate]
    decide
  cases call with
  | hello session =>
      refine hframe ?_ (by decide)
      have hs : session.tag.length ≤ 1 <<< 20 := h
      simp only [serializeHello, List.length_flatten, List.map_cons, List.map_nil, List.sum_cons,
        List.sum_nil, length_strong, length_string, length_flag, length_u64, maxPayload_toNat]
      omega
  | registerCache cache =>
      refine hframe ?_ (by decide)
      simp only [serializeCache, wrCache, wCache, wAuth, List.length_flatten, List.map_cons,
        List.map_nil, List.sum_cons, List.sum_nil, length_u64, length_strong, length_flag,
        length_enum]
      decide
  | registerLocation loc => exact h.elim
  | registerReplica rep => exact h.elim
  | registerEntry record =>
      exact hframe ((length_wrRec record).trans_le (recordSize_le h)) (by decide)
  | query q => exact hframe (length_serializeQuery h.1) (by decide)
  | updateHealth m => exact hframe (hupdate m.id m.health m.env) (by decide)
  | updateFreshness m => exact hframe (hupdate m.id m.freshness m.env) (by decide)
  | updateReachability m => exact hframe (hupdate m.id m.reachability m.env) (by decide)
  | updateIntegrity m => exact hframe (hupdate m.id m.integrity m.env) (by decide)
  | renewLease m =>
      refine hframe ?_ (by decide)
      rw [serializeRenewLease, List.length_append, length_strong, length_wrAuth]
      decide
  | invalidate msg =>
      refine hframe ?_ (by decide)
      have hreason := h.2.1
      simp only [serializeInvalidate, List.length_flatten, List.map_cons, List.map_nil,
        List.sum_cons, List.sum_nil, length_u64, length_wrAuth, length_string, maxPayload_toNat]
      show 1 + _ ≤ _
      omega
  | tombstone t =>
      refine hframe ?_ (by decide)
      have hreason : t.reason.length ≤ 1 <<< 20 := h
      simp only [serializeTombstone, wTomb, wTarget, List.length_flatten, List.map_cons,
        List.map_nil, List.sum_cons, List.sum_nil, length_u64, length_strong, length_string,
        length_enum, ByteWriter.bytes, List.Vector.toList_length, maxPayload_toNat]
      omega
  | save path => exact hframe (hpath h) (by decide)
  | recover path => exact hframe (hpath h) (by decide)

/-! ## 5. Many clients -/

/-- What the clients do: connect, call, disconnect. -/
inductive Action where
  | connect (id : Nat)
  | call (id : Nat) (w : Surroundings) (unset : DirectoryError × Bytes) (x : QueryResult F64)
      (call : Call)
  | disconnect (id : Nat)

/-- The clients of a coordinator: the bytes under way to each, its last error, and what the calls
    returned, in the order they were made. -/
structure RemoteSystem where
  server : CoordinatorServer := {}
  incoming : Nat → Bytes := fun _ => []
  last : Nat → LastError := fun _ => {}
  log : List (Nat × Except Bytes Value) := []

/-- The text `receive` leaves in `err`; a read outside the buffer would leave none. -/
def errText : ReadFault String → Bytes
  | .refused text => ascii text
  | .outside => []

/-- One action. The request goes through the channel, and so does the first answer that is under
    way to the client. A request the server does not receive ends the connection. -/
def RemoteSystem.act (F : Type) [WireDouble F] (a : Action) (s : RemoteSystem) : RemoteSystem :=
  match a with
  | .connect id => { s with server := CoordinatorServer.step F (.accept id) s.server }
  | .call id w unset x call =>
      match s.server.connections.find id with
      | none => s
      | some conn =>
          let sent := FrameChannel.send (toByte call.request.kind) call.request.payload
          let (server, answers) := match (FrameChannel.receive sent).1 with
            | .error _ => (CoordinatorServer.step F (.close id) s.server, [])
            | .ok (kind, payload) =>
                let frame : Frame := { kind := ofByte kind, payload := payload }
                (CoordinatorServer.step F (.frame id w frame) s.server,
                  (handle F w frame conn.handler s.server.dir).1)
          let (received, rest) := FrameChannel.receive (s.incoming id ++ onChannel answers)
          let resp : Except Bytes Frame := match received with
            | .error e => .error (errText e)
            | .ok (kind, payload) => .ok { kind := ofByte kind, payload := payload }
          let (returned, last) := call.perform unset x resp (s.last id)
          { server := server
            incoming := Function.update s.incoming id rest
            last := Function.update s.last id last
            log := s.log ++ [(id, returned)] }
  | .disconnect id =>
      { s with
        server := CoordinatorServer.step F (.close id) s.server
        incoming := Function.update s.incoming id [] }

/-- The same clients on the directory itself. `boots` are the connections, each with the boot its
    last HELLO opened. -/
structure LocalSystem where
  dir : Directory := {}
  boots : Nat → Option (Option WorkerBootId) := fun _ => none
  last : Nat → LastError := fun _ => {}
  log : List (Nat × Except Bytes Value) := []

/-- The boot of a connection behind a call. -/
def Call.opened (call : Call) (r : Result Value) (boot : Option WorkerBootId) :
    Option WorkerBootId :=
  match call with
  | .hello session => if r.isOk then some session.boot else boot
  | _ => boot

def LocalSystem.act (F : Type) [WireDouble F] (a : Action) (s : LocalSystem) : LocalSystem :=
  match a with
  | .connect id =>
      if (s.boots id).isSome then s
      else { s with boots := Function.update s.boots id (some none) }
  | .call id w _ x call =>
      match s.boots id with
      | none => s
      | some boot =>
          let (r, dir) := call.carried.run F w s.dir
          let (returned, last) := reported x r (s.last id)
          { dir := dir
            boots := Function.update s.boots id (some (call.opened r boot))
            last := Function.update s.last id last
            log := s.log ++ [(id, returned)] }
  | .disconnect id =>
      match s.boots id with
      | none => s
      | some boot =>
          { s with
            dir := boot.elim s.dir fun b => (s.dir.onWorkerLoss b (ascii "connection closed")).2
            boots := Function.update s.boots id none }

/-- Every call made on a connection fits the wire. -/
def Action.Fits (a : Action) (s : LocalSystem) : Prop :=
  match a with
  | .call _ _ _ _ made => made.Fits s.dir
  | _ => True

/-- The boot a handler remembers. -/
def remembers (h : Handler) : Option WorkerBootId := if h.haveBoot then some h.boot else none

/-- The two systems are at the same point: nothing is under way, and the handlers remember what
    the connections opened. -/
structure Mirrors (F : Type) [WireDouble F] (s : RemoteSystem) (t : LocalSystem) : Prop where
  dir : s.server.dir = t.dir
  reached : ∃ ops, s.server.dir = after (Operation.step F) {} ops
  boots : ∀ id, (s.server.connections.find id).map (fun c => remembers c.handler) = t.boots id
  incoming : ∀ id, s.incoming id = []
  last : s.last = t.last
  log : s.log = t.log

section Systems

variable {F : Type} [WireDouble F] {s : RemoteSystem} {t : LocalSystem}

theorem mirrors_connect (h : Mirrors F s t) (id : Nat) :
    Mirrors F (s.act F (.connect id)) (t.act F (.connect id)) := by
  have hboots := h.boots id
  have hcontains : s.server.connections.contains id = (t.boots id).isSome := by
    rw [← hboots, Option.isSome_map]
    rfl
  unfold RemoteSystem.act LocalSystem.act
  dsimp only [CoordinatorServer.step]
  cases hopen : (t.boots id).isSome with
  | true =>
      rw [if_pos (hcontains.trans hopen), if_pos rfl]
      exact h
  | false =>
      rw [if_neg (by rw [hcontains, hopen]; decide), if_neg Bool.false_ne_true]
      refine ⟨h.dir, h.reached, fun other => ?_, h.incoming, h.last, h.log⟩
      show ((s.server.connections.put { id := id }).find other).map _ =
        Function.update t.boots id (some none) other
      rw [KeyedMap.find_put]
      by_cases hid : id = other
      · subst hid
        rw [if_pos rfl, Function.update_self]
        rfl
      · rw [if_neg hid, Function.update_of_ne (Ne.symm hid)]
        exact h.boots other

/-- Nothing is under way to anybody, also when nothing is left for one of them. -/
theorem incoming_nil (h : Mirrors F s t) (id other : Nat) :
    Function.update s.incoming id [] other = [] := by
  by_cases hid : other = id
  · rw [hid, Function.update_self]
  · rw [Function.update_of_ne hid, h.incoming other]

theorem mirrors_disconnect (h : Mirrors F s t) (id : Nat) :
    Mirrors F (s.act F (.disconnect id)) (t.act F (.disconnect id)) := by
  have hboots := h.boots id
  have hreached := reached_next (.close id) h.reached
  unfold RemoteSystem.act LocalSystem.act
  dsimp only
  cases hfind : s.server.connections.find id with
  | none =>
      rw [hfind] at hboots
      rw [← hboots]
      simp only [CoordinatorServer.step, hfind, Option.map_none] at hreached ⊢
      exact ⟨h.dir, hreached, h.boots, incoming_nil h id, h.last, h.log⟩
  | some conn =>
      rw [hfind] at hboots
      rw [← hboots]
      rw [step_close hfind] at hreached ⊢
      refine ⟨?_, hreached, fun other => ?_, incoming_nil h id, h.last, h.log⟩
      · show hangUp conn.handler s.server.dir = (remembers conn.handler).elim t.dir _
        unfold hangUp remembers
        rw [h.dir]
        cases conn.handler.haveBoot with
        | false => rfl
        | true => rfl
      · show ((s.server.connections.erase id).find other).map _ =
          Function.update t.boots id none other
        rw [KeyedMap.find_erase]
        by_cases hid : id = other
        · subst hid
          rw [if_pos rfl, Function.update_self]
          rfl
        · rw [if_neg hid, Function.update_of_ne (Ne.symm hid)]
          exact h.boots other

/-- The boot behind a call. -/
theorem remembers_remembered (call : Call) (r : Result Value) (handler : Handler) :
    remembers (call.remembered r handler) = call.opened r (remembers handler) := by
  cases call with
  | hello session =>
      unfold Call.remembered Call.opened
      dsimp only
      cases r.isOk with
      | false => rfl
      | true => rfl
  | _ => rfl

/-- The channel brings a frame that passes to the other side, and nothing is left. -/
theorem receive_alone {f : Frame} (h : f.Passes) :
    FrameChannel.receive (FrameChannel.send (toByte f.kind) f.payload) =
      (.ok (toByte f.kind, f.payload), []) := by
  have hdec := decodeFrame_encoded h.2 h.1 []
  rw [List.append_nil] at hdec
  have hsent := receive_sent h.2 [] hdec
  rw [List.append_nil] at hsent
  exact hsent

theorem mirrors_call (h : Mirrors F s t) (id : Nat) (w : Surroundings)
    (unset : DirectoryError × Bytes) (x : QueryResult F64) {call : Call}
    (hfits : call.Fits t.dir) :
    Mirrors F (s.act F (.call id w unset x call)) (t.act F (.call id w unset x call)) := by
  have hboots := h.boots id
  unfold RemoteSystem.act LocalSystem.act
  dsimp only
  cases hfind : s.server.connections.find id with
  | none =>
      rw [hfind] at hboots
      rw [← hboots]
      exact h
  | some conn =>
      obtain ⟨ops, hops⟩ := h.reached
      have hreached : Reached F ops s.server.dir := by
        rw [hops]
        exact after_mem_visited _ _ _
      rw [← h.dir] at hfits
      obtain ⟨⟨a, hout, hpass, hreported⟩, hremembered⟩ :=
        performed F hreached w conn.handler unset x (s.last id) hfits
      obtain ⟨hanswers, hdir⟩ := Prod.mk.inj hout
      have hnext := reached_next (.frame id w call.request) h.reached
      rw [step_frame hfind] at hnext
      rw [hfind] at hboots
      have hanswer : FrameChannel.receive (s.incoming id ++ onChannel [a]) =
          (.ok (toByte a.kind, a.payload), []) := by
        rw [h.incoming id, List.nil_append, onChannel_cons, show onChannel [] = [] from rfl,
          List.append_nil]
        exact receive_alone hpass
      rw [← hboots, Option.map_some, receive_alone (passes_request hfits)]
      simp only [ofByte_toByte]
      rw [show (Frame.mk call.request.kind call.request.payload) = call.request from rfl, hanswers,
        hanswer]
      simp only [ofByte_toByte]
      rw [show Frame.mk a.kind a.payload = a from rfl, hreported, step_frame hfind, ← h.dir,
        ← h.last]
      refine ⟨hdir, hnext, fun other => ?_, incoming_nil h id, rfl, by rw [h.log]⟩
      show ((s.server.connections.put _).find other).map _ = Function.update t.boots id _ other
      rw [KeyedMap.find_put]
      by_cases hid : conn.id = other
      · rw [if_pos hid, ← (KeyedMap.find_eq_some.mp hfind).2, ← hid, Function.update_self,
          Option.map_some, hremembered, remembers_remembered]
      · rw [if_neg hid, Function.update_of_ne
          (fun heq => hid ((KeyedMap.find_eq_some.mp hfind).2.trans heq.symm))]
        exact h.boots other

/-- **One action** keeps the two systems together. -/
theorem mirrors_act (a : Action) (s : RemoteSystem) (t : LocalSystem) (h : Mirrors F s t)
    (hfits : a.Fits t) : Mirrors F (s.act F a) (t.act F a) := by
  cases a with
  | connect id => exact mirrors_connect h id
  | call id w unset x call => exact mirrors_call h id w unset x hfits
  | disconnect id => exact mirrors_disconnect h id

end Systems

/-- **The clients of a coordinator are clients of one directory**: started afresh or from a persist
    file, for every interleaving of connections, calls that fit and disconnections, every call
    returns what the wire carries of what the carried call returns on the directory itself, every
    client is left with the same last error, and the directory is the one the carried calls
    leave. -/
theorem remote_is_local (F : Type) [WireDouble F] (persisted : Option (Option Bytes))
    (s₀ : CoordinatorServer) (hstart : start persisted = some s₀) (actions : List Action)
    (hfits : Follows (LocalSystem.act F) Action.Fits { dir := s₀.dir } actions) :
    let remote := after (RemoteSystem.act F) { server := s₀ } actions
    let direct := after (LocalSystem.act F) { dir := s₀.dir } actions
    remote.log = direct.log ∧ remote.last = direct.last ∧ remote.server.dir = direct.dir := by
  intro remote direct
  have hbegin : Mirrors F { server := s₀ } { dir := s₀.dir } := by
    have hnobody : ∀ id, s₀.connections.find id = none := by
      intro id
      rcases start_cases hstart with rfl | ⟨buf, ack, d, hrec, rfl⟩
      · rfl
      · rfl
    refine ⟨rfl, reached_start hstart, fun id => ?_, fun _ => rfl, rfl, rfl⟩
    rw [hnobody id]
    rfl
  have hrun : Mirrors F remote direct :=
    after_related_of_follows mirrors_act actions hbegin hfits
  exact ⟨hrun.log, hrun.last, hrun.dir⟩

/-- A worker says HELLO and asks for a copy, and so does a second client without a session. -/
def twoClients : List Action :=
  [.connect 0, .connect 1,
    .call 0 someSurroundings (.none, []) {} (.hello attachedSession),
    .call 1 someSurroundings (.none, []) {} (.query {}),
    .disconnect 0]

theorem remote_is_local_twoClients :
    let remote := after (RemoteSystem.act Float) {} twoClients
    let direct := after (LocalSystem.act Float) {} twoClients
    remote.log = direct.log ∧ remote.last = direct.last ∧ remote.server.dir = direct.dir := by
  have htag : attachedSession.tag.length ≤ 1 <<< 20 := by decide
  refine remote_is_local Float none {} rfl twoClients
    ⟨trivial, trivial, htag, ⟨⟨by decide, by decide, by decide, by decide⟩, ?_⟩, trivial,
      trivial⟩
  exact ⟨by decide +kernel, by decide +kernel, by decide +kernel⟩

end Client

end CacheDirectory
