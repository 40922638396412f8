/-
  File:      CacheDirectory/Wire/Connections.lean
  Subject:   SESSIONS AND THE CONNECTIONS THAT OPENED THEM.

  A frame asks the directory for at most one operation, so a run of the server is a run of the
  directory. HELLO opens a session; the handler remembers the last boot it opened, and only that
  one is lost when the connection closes.

  * `handle_requested`, `dir_step` -- the server's steps as operations of the directory;
  * `reached_server` -- what a server reaches a directory reaches;
  * `Connection.Opened` -- the boots a connection opened, read off its exchanges;
  * `sessionsOwned_iff` -- every live boot was opened by a connection still open, exactly in the
    runs where no connection closes that leaves one of its boots behind.
-/
import CacheDirectory.Invariants.Sessions
import CacheDirectory.Wire.Exchanges

namespace CacheDirectory

open Library Protocol

namespace CoordinatorServer

/-! ## 1. The server's steps as operations -/

/-- The operation of an INVALIDATE. -/
def invalidation (w : Surroundings) (m : InvalidateMsg) : Option Operation :=
  match m.kind.toNat with
  | 0 => some (.invalidateState ⟨m.target⟩ ⟨m.generation⟩ m.env m.reason w.clk)
  | 1 => some (.invalidateCache ⟨m.target⟩ m.env m.reason w.clk)
  | 2 => some (.invalidateReplica ⟨m.target⟩ m.env m.reason w.clk)
  | 3 => some (.invalidateLocation ⟨m.target⟩ m.env m.reason w.clk)
  | 4 => some (.invalidateWorkerBoot ⟨m.target⟩ m.env m.reason w.clk)
  | _ => none

/-- The operation of a RECOVER, when its file is there and not empty. -/
def recovery (w : Surroundings) (path : Bytes) : Option Operation :=
  match w.fileAt path with
  | some (b :: bs) => some (.recoverFromBuffer (b :: bs))
  | _ => none

/-- The operation a frame asks the directory for. -/
def requested (w : Surroundings) (frame : Frame) : Option Operation :=
  match frame.kind with
  | .hello => (deserializeHello {} frame.payload).toOption.map .registerWorkerSession
  | .registerCache => (deserializeCache {} frame.payload).toOption.map .registerCache
  | .registerLocation => (deserializeLocation {} frame.payload).toOption.map .registerLocation
  | .registerReplica => (deserializeReplica {} frame.payload).toOption.map .registerReplica
  | .registerEntry =>
      (deserializeRecord {} frame.payload).toOption.map fun r => .registerEntry r w.clk
  | .updateHealth =>
      (deserializeUpdateHealth frame.payload).toOption.map fun m =>
        .updateHealth m.id m.health m.env (w.clk 0)
  | .updateFreshness =>
      (deserializeUpdateFreshness frame.payload).toOption.map fun m =>
        .updateFreshness m.id m.freshness m.env (w.clk 0)
  | .updateReachability =>
      (deserializeUpdateReachability frame.payload).toOption.map fun m =>
        .updateReachability m.id m.reachability m.env (w.clk 0)
  | .updateIntegrity =>
      (deserializeUpdateIntegrity frame.payload).toOption.map fun m =>
        .updateIntegrity m.id m.integrity m.env (w.clk 0)
  | .renewLease =>
      (deserializeRenewLease frame.payload).toOption.map fun m =>
        .renewLease m.leaseId m.env (w.clk 0)
  | .invalidate => (deserializeInvalidate frame.payload).toOption.bind (invalidation w)
  | .tombstone => (deserializeTombstone {} frame.payload).toOption.map .tombstone
  | .query => (deserializeQuery {} frame.payload).toOption.map (.query w.bucket)
  | .recover => (deserializePath frame.payload).toOption.bind (recovery w)
  | _ => none

section Requested

variable {F : Type} [WireDouble F] {w : Surroundings} {d : Directory}

/-- The directory behind an operation that may not be there. -/
def behind (F : Type) [WireDouble F] (op : Option Operation) (d : Directory) : Directory :=
  op.elim d fun op => op.step F d

theorem serve_requested {α β : Type} {parsed : Deserialized α} {malformed : String}
    {call : α → Directory → Result β × Directory} {done : β → Bytes} (mk : α → Operation)
    (h : ∀ m, (call m d).2 = (mk m).step F d) :
    (serve parsed malformed call done d).2 = behind F (parsed.toOption.map mk) d := by
  obtain ⟨a, hspec⟩ := serve_spec (d := d) parsed malformed call done
  rw [hspec]
  cases parsed with
  | error e => rfl
  | ok m => exact h m

theorem hello_requested (payload : Bytes) (h : Handler) :
    (hello payload h d).2.2 =
      behind F ((deserializeHello {} payload).toOption.map .registerWorkerSession) d := by
  obtain ⟨a, h', hspec⟩ := hello_spec (d := d) payload h
  rw [hspec]
  cases deserializeHello {} payload with
  | error e => rfl
  | ok s => rfl

theorem invalidate_requested (payload : Bytes) :
    (invalidate w payload d).2 =
      behind F ((deserializeInvalidate payload).toOption.bind (invalidation w)) d := by
  unfold invalidate
  cases deserializeInvalidate payload with
  | error e => rfl
  | ok m =>
      have hkind : (invalidateByKind w m d).2.2 = behind F (invalidation w m) d := by
        unfold invalidateByKind invalidation
        generalize m.kind.toNat = k
        rcases k with _ | _ | _ | _ | _ | k
        all_goals rfl
      refine Eq.trans ?_ hkind
      simp only
      rcases invalidateByKind w m d with ⟨spoken, f | r, d'⟩
      · rfl
      · rfl

theorem query_requested (payload : Bytes) :
    (query F w payload d).2 =
      behind F ((deserializeQuery {} payload).toOption.map (.query w.bucket)) d := by
  obtain ⟨a, hspec⟩ := query_spec (F := F) (w := w) (d := d) payload
  rw [hspec]
  cases deserializeQuery {} payload with
  | error e => rfl
  | ok q => rfl

/-- RECOVER of a file that is there and not empty is the recovery of its bytes; of any other file
    it is nothing. -/
theorem recovery_behind (path : Bytes) :
    (d.recover (w.fileAt path)).elim d Prod.snd = behind F (recovery w path) d := by
  unfold recovery
  rcases w.fileAt path with - | - | ⟨b, bs⟩
  · rfl
  · rfl
  · show (d.recoverFromBuffer (b :: bs)).elim d Prod.snd =
      (Operation.recoverFromBuffer (b :: bs)).step F d
    simp only [Operation.step, Operation.run]
    cases d.recoverFromBuffer (b :: bs) with
    | none => rfl
    | some r => rfl

theorem recover_requested (payload : Bytes) :
    (recover w payload d).2 =
      behind F ((deserializePath payload).toOption.bind (recovery w)) d := by
  obtain ⟨a, hspec⟩ := recover_spec (w := w) (d := d) payload
  rw [hspec]
  cases deserializePath payload with
  | error e => rfl
  | ok path => exact recovery_behind path

/-- SAVE leaves the directory alone. -/
theorem save_requested (payload : Bytes) :
    (serve (deserializePath payload) "malformed path"
      (fun path d => (d.save w.maps w.written path, d)) (fun _ => ascii "saved") d).2 = d := by
  obtain ⟨a, hspec⟩ := serve_spec (d := d) (deserializePath payload) "malformed path"
    (fun path d => (d.save w.maps w.written path, d)) fun _ => ascii "saved"
  rw [hspec]
  cases deserializePath payload with
  | error e => rfl
  | ok path => rfl

/-- **A frame does to the directory what the operation it asks for does.** -/
theorem handle_requested (frame : Frame) (h : Handler) :
    (handle F w frame h d).2.2 = behind F (requested w frame) d := by
  obtain ⟨kind, payload⟩ := frame
  cases kind with
  | hello => exact hello_requested payload h
  | invalidate => exact invalidate_requested payload
  | query => exact query_requested payload
  | recover => exact recover_requested payload
  | save => exact save_requested payload
  | registerCache => exact serve_requested _ fun _ => rfl
  | registerLocation => exact serve_requested _ fun _ => rfl
  | registerReplica => exact serve_requested _ fun _ => rfl
  | registerEntry => exact serve_requested _ fun _ => rfl
  | updateHealth => exact serve_requested _ fun _ => rfl
  | updateFreshness => exact serve_requested _ fun _ => rfl
  | updateReachability => exact serve_requested _ fun _ => rfl
  | updateIntegrity => exact serve_requested _ fun _ => rfl
  | renewLease => exact serve_requested _ fun _ => rfl
  | tombstone => exact serve_requested _ fun _ => rfl
  | _ => rfl

/-- The operation of a closing connection: the loss of the boot its handler remembers. -/
def Handler.farewell (h : Handler) : Option Operation :=
  if h.haveBoot then some (.onWorkerLoss h.boot (ascii "connection closed")) else none

theorem hangUp_farewell (h : Handler) : hangUp h d = behind F h.farewell d := by
  unfold hangUp Handler.farewell
  cases h.haveBoot with
  | false => rfl
  | true => rfl

/-- The operation an event comes down to. -/
def Event.requested (e : Event) (s : CoordinatorServer) : Option Operation :=
  match e with
  | .accept _ => none
  | .frame id w f => (s.connections.find id).bind fun _ => CoordinatorServer.requested w f
  | .close id => (s.connections.find id).bind fun c => c.handler.farewell

/-- **A step of the server is at most one operation of its directory.** -/
theorem dir_step (e : Event) (s : CoordinatorServer) :
    (step F e s).dir = behind F (e.requested s) s.dir := by
  cases e with
  | accept id =>
      show (if s.connections.contains id then s
        else { s with connections := s.connections.put { id := id } }).dir = s.dir
      split
      · rfl
      · rfl
  | frame id w frame =>
      cases hfind : s.connections.find id with
      | none => simp only [step, Event.requested, hfind, behind, Option.bind_none, Option.elim_none]
      | some c =>
          rw [step_frame hfind, Event.requested, hfind]
          exact handle_requested frame c.handler
  | close id =>
      cases hfind : s.connections.find id with
      | none => simp only [step, Event.requested, hfind, behind, Option.bind_none, Option.elim_none]
      | some c =>
          rw [step_close hfind, Event.requested, hfind]
          exact hangUp_farewell c.handler

theorem behind_eq_after (op : Option Operation) (d : Directory) :
    behind F op d = after (Operation.step F) d op.toList := by
  cases op with
  | none => rfl
  | some op => rfl

/-- A server starts with a directory that recovered its persist file, or with a fresh one. -/
theorem start_cases {persisted : Option (Option Bytes)} {s₀ : CoordinatorServer}
    (h : start persisted = some s₀) :
    s₀ = {} ∨ ∃ buf ack d, Directory.recoverFromBuffer buf {} = some (.ok ack, d) ∧
      s₀ = { dir := d } := by
  unfold start at h
  rcases persisted with - | - | - | ⟨b, bs⟩
  · cases h
    exact .inl rfl
  · cases h
  · cases h
  · have hfile : Directory.recover (some (b :: bs)) {} = Directory.recoverFromBuffer (b :: bs) {} :=
      rfl
    simp only [hfile] at h
    rcases hrec : Directory.recoverFromBuffer (b :: bs) {} with - | ⟨f | ack, d⟩
    · simp only [hrec] at h
      cases h
    · simp only [hrec] at h
      cases h
    · simp only [hrec] at h
      cases h
      exact .inr ⟨_, ack, d, hrec, rfl⟩

/-- A server starts with a directory that operations reach. -/
theorem reached_start {persisted : Option (Option Bytes)} {s₀ : CoordinatorServer}
    (hstart : start persisted = some s₀) :
    ∃ ops, s₀.dir = after (Operation.step F) {} ops := by
  rcases start_cases hstart with rfl | ⟨buf, ack, d, hrec, rfl⟩
  · exact ⟨[], rfl⟩
  · exact ⟨[.recoverFromBuffer buf], (step_of_recovered F hrec).symm⟩

/-- A step of a server leaves a directory that operations reach. -/
theorem reached_next (e : Event) {s : CoordinatorServer}
    (h : ∃ ops, s.dir = after (Operation.step F) {} ops) :
    ∃ ops, (step F e s).dir = after (Operation.step F) {} ops := by
  obtain ⟨ops, hops⟩ := h
  refine ⟨ops ++ (e.requested s).toList, ?_⟩
  rw [dir_step, behind_eq_after, hops, after_append]

/-- **What a server reaches a directory reaches**, started afresh or from a persist file. -/
theorem reached_server {persisted : Option (Option Bytes)} {s₀ : CoordinatorServer}
    (hstart : start persisted = some s₀) (events : List Event) {s : CoordinatorServer}
    (hs : s ∈ visited (step F) s₀ events) : ∃ ops, Reached F ops s.dir := by
  have hkeep (e : Event) (s : CoordinatorServer)
      (h : ∃ ops, s.dir = after (Operation.step F) {} ops) :
      ∃ ops, (step F e s).dir = after (Operation.step F) {} ops := reached_next e h
  obtain ⟨ops, hops⟩ := visited_invariant hkeep (reached_start hstart) events s hs
  refine ⟨ops, ?_⟩
  rw [hops]
  exact after_mem_visited _ _ _

end Requested

end CoordinatorServer

/-! ## 2. Who opened a session -/

/-- A HELLO of the boot that was acknowledged. -/
def Exchange.Opens (x : Exchange) (b : WorkerBootId) : Prop :=
  x.request.kind = .hello ∧
    (∃ s, deserializeHello {} x.request.payload = .ok s ∧ s.boot = b) ∧
    x.answers.map (·.kind) = [.ack]

/-- The connection opened a session of the boot. -/
def Connection.Opened (c : Connection) (b : WorkerBootId) : Prop := ∃ x ∈ c.exchanges, x.Opens b

namespace CoordinatorServer

/-- Every live boot was opened by a connection that is still open. -/
def SessionsOwned (s : CoordinatorServer) : Prop :=
  ∀ b, s.dir.workerLive b = true → ∃ c ∈ s.connections.values, c.Opened b

section Opened

variable {F : Type} [WireDouble F] {w : Surroundings} {d : Directory} {b : WorkerBootId}

/-- Sessions are asked for by HELLO alone. -/
theorem requested_session {frame : Frame} {s : WorkerSession}
    (h : requested w frame = some (.registerWorkerSession s)) :
    frame.kind = .hello ∧ deserializeHello {} frame.payload = .ok s := by
  have hinvalidation {m : InvalidateMsg} : invalidation w m ≠ some (.registerWorkerSession s) := by
    unfold invalidation
    split
    all_goals simp
  have hrecovery {path : Bytes} : recovery w path ≠ some (.registerWorkerSession s) := by
    unfold recovery
    split
    all_goals simp
  obtain ⟨kind, payload⟩ := frame
  cases kind with
  | hello =>
      refine ⟨rfl, ?_⟩
      simp only [requested] at h
      cases hparse : deserializeHello {} payload with
      | error e =>
          rw [hparse] at h
          cases h
      | ok s' =>
          rw [hparse] at h
          cases h
          rfl
  | invalidate =>
      obtain ⟨m, _, hm⟩ := Option.bind_eq_some_iff.mp h
      exact absurd hm hinvalidation
  | recover =>
      obtain ⟨path, _, hpath⟩ := Option.bind_eq_some_iff.mp h
      exact absurd hpath hrecovery
  | _ => simp [requested] at h

/-- **A boot that is live behind a frame and was not before is opened by this frame.** -/
theorem opens_of_live {frame : Frame} {h : Handler} (hdead : d.workerLive b = false)
    (hlive : (handle F w frame h d).2.2.workerLive b = true) :
    (Exchange.mk frame (handle F w frame h d).1).Opens b := by
  rw [handle_requested] at hlive
  cases hop : requested w frame with
  | none =>
      rw [hop, show behind F none d = d from rfl, hdead] at hlive
      cases hlive
  | some op =>
      have hopens : op.Opens b := by
        by_contra hno
        rw [hop, show behind F (some op) d = op.step F d from rfl,
          (workerLive_step F hdead op).mpr hno] at hlive
        cases hlive
      obtain ⟨s, rfl, hb, hwelcome⟩ := hopens
      obtain ⟨hkind, hparse⟩ := requested_session hop
      refine ⟨hkind, ⟨s, hparse, hb⟩, ?_⟩
      have hregistered : ∃ v d', d.registerWorkerSession s = (.ok v, d') := by
        rcases registerWorkerSession_cases (d := d) s with ⟨f, _, hno⟩ | ⟨_, a, hreg⟩
        · refine absurd ⟨hwelcome, ?_⟩ hno
          rw [hb]
          exact hdead
        · exact ⟨_, _, hreg⟩
      obtain ⟨v, d', hreg⟩ := hregistered
      obtain ⟨kind, payload⟩ := frame
      cases hkind
      show (hello payload h d).1.map (·.kind) = [.ack]
      unfold hello
      simp only [hparse, hreg]
      rfl

/-- What a closing connection leaves live. -/
theorem workerLive_hangUp {h : Handler} :
    (hangUp h d).workerLive b = true ↔
      d.workerLive b = true ∧ ¬ (h.haveBoot = true ∧ h.boot = b) := by
  unfold hangUp
  cases h.haveBoot with
  | false => simp
  | true =>
      rw [if_pos rfl, workerLive_lost]
      simp only [true_and, ne_eq, eq_comm]

end Opened

/-! ## 3. The invariant -/

/-- Closing the connection leaves none of its boots behind: what it opened and is live is the boot
    its handler remembers, or was opened by another open connection too. -/
def Event.Clears (e : Event) (s : CoordinatorServer) : Prop :=
  match e with
  | .close id =>
      ∀ c, s.connections.find id = some c → ∀ b, s.dir.workerLive b = true → c.Opened b →
        (c.handler.haveBoot = true ∧ c.handler.boot = b) ∨
          ∃ c' ∈ s.connections.values, c'.id ≠ id ∧ c'.Opened b
  | _ => True

section Events

variable {F : Type} [WireDouble F] {s : CoordinatorServer}

theorem sessionsOwned_accept (id : Nat) (hs : s.SessionsOwned) :
    (step F (.accept id) s).SessionsOwned := by
  show (if s.connections.contains id then s
    else { s with connections := s.connections.put { id := id } }).SessionsOwned
  split
  · exact hs
  · next hfresh =>
      intro b hlive
      obtain ⟨c, hc, hopened⟩ := hs b hlive
      refine ⟨c, KeyedMap.mem_put.mpr (.inr ⟨hc, ?_⟩), hopened⟩
      intro hid
      refine hfresh ?_
      unfold KeyedMap.contains
      rw [KeyedMap.find_eq_some.mpr ⟨hc, hid⟩]
      rfl

theorem sessionsOwned_frame {id : Nat} {c : Connection} (hfind : s.connections.find id = some c)
    (w : Surroundings) (frame : Frame) (hs : s.SessionsOwned) :
    (step F (.frame id w frame) s).SessionsOwned := by
  obtain ⟨hc, hid⟩ := KeyedMap.find_eq_some.mp hfind
  rw [step_frame hfind]
  intro b hlive
  cases hbefore : s.dir.workerLive b with
  | false =>
      exact ⟨_, KeyedMap.mem_put.mpr (.inl rfl), _,
        List.mem_append_right _ List.mem_cons_self, opens_of_live hbefore hlive⟩
  | true =>
      obtain ⟨c', hc', x, hx, hopens⟩ := hs b hbefore
      by_cases hsame : c'.id = c.id
      · -- the connection itself: its exchanges only grow
        obtain rfl := KeyedMap.eq_of_key hc' hc hsame
        exact ⟨_, KeyedMap.mem_put.mpr (.inl rfl), x, List.mem_append_left _ hx, hopens⟩
      · exact ⟨c', KeyedMap.mem_put.mpr (.inr ⟨hc', hsame⟩), x, hx, hopens⟩

theorem sessionsOwned_close {id : Nat} {c : Connection} (hfind : s.connections.find id = some c)
    (hs : s.SessionsOwned) :
    Event.Clears (.close id) s ↔ (step F (.close id) s).SessionsOwned := by
  rw [step_close hfind]
  constructor
  · intro hclears b hlive
    obtain ⟨hbefore, hkept⟩ := workerLive_hangUp.mp hlive
    obtain ⟨c', hc', hopened⟩ := hs b hbefore
    by_cases hid : c'.id = id
    · have hfind' := KeyedMap.find_eq_some.mpr ⟨hc', hid⟩
      rcases hclears c' hfind' b hbefore hopened with hboot | ⟨c'', hc'', hother, hopened'⟩
      · rw [hfind] at hfind'
        cases hfind'
        exact absurd hboot hkept
      · exact ⟨c'', KeyedMap.mem_erase.mpr ⟨hc'', hother⟩, hopened'⟩
    · exact ⟨c', KeyedMap.mem_erase.mpr ⟨hc', hid⟩, hopened⟩
  · intro howned c' hfind' b hbefore _
    rw [hfind] at hfind'
    cases hfind'
    by_cases hboot : c.handler.haveBoot = true ∧ c.handler.boot = b
    · exact .inl hboot
    · obtain ⟨c', hc', hopened⟩ := howned b (workerLive_hangUp.mpr ⟨hbefore, hboot⟩)
      obtain ⟨hmem, hother⟩ := KeyedMap.mem_erase.mp hc'
      exact .inr ⟨c', hmem, hother, hopened⟩

end Events

/-- **One event**: the invariant survives exactly when a closing connection leaves no boot
    behind. -/
theorem sessionsOwned_step_iff (F : Type) [WireDouble F] (e : Event) (s : CoordinatorServer)
    (hs : s.SessionsOwned) : e.Clears s ↔ (step F e s).SessionsOwned := by
  cases e with
  | accept id => exact iff_of_true trivial (sessionsOwned_accept id hs)
  | frame id w frame =>
      refine iff_of_true trivial ?_
      cases hfind : s.connections.find id with
      | none =>
          simp only [step, hfind]
          exact hs
      | some c => exact sessionsOwned_frame hfind w frame hs
  | close id =>
      cases hfind : s.connections.find id with
      | none =>
          refine iff_of_true (fun c hc => ?_) ?_
          · rw [hfind] at hc
            cases hc
          · simp only [step, hfind]
            exact hs
      | some c => exact sessionsOwned_close hfind hs

end CoordinatorServer

open CoordinatorServer in
/-- **Every live boot was opened by a connection that is still open, exactly in the runs where no
    connection closes that leaves one of its boots behind**: from a fresh start or a recovered
    one, for any interleaving of connections, frames and closings. -/
theorem sessionsOwned_iff (F : Type) [WireDouble F] (persisted : Option (Option Bytes))
    (s₀ : CoordinatorServer) (hstart : start persisted = some s₀) (events : List Event) :
    Follows (step F) Event.Clears s₀ events ↔
      ∀ s ∈ visited (step F) s₀ events, s.SessionsOwned := by
  refine follows_iff_visited (sessionsOwned_step_iff F) events s₀ fun b hlive => ?_
  rcases start_cases hstart with rfl | ⟨buf, ack, d, hrec, rfl⟩
  · cases hlive
  · rcases recoverFromBuffer_cases buf {} with ⟨f, hfail⟩ | ⟨snap, ack', _, _, hdone⟩
    · rw [hfail] at hrec
      cases hrec
    · rw [hdone] at hrec
      cases hrec
      cases hlive

/-! ## 4. Two sessions on one connection -/

/-- HELLO of worker 1 under boot 2. -/
def secondHello : Frame :=
  { kind := .hello, payload := serializeHello { boot := ⟨2⟩, worker := ⟨1⟩ } }

/-- The server behind both HELLOs and the close. -/
def afterClose : CoordinatorServer :=
  after (CoordinatorServer.step Float) {} (oneClient [helloFrame, secondHello] ++ [.close 0])

/-- **The counterexample**: boot 1 is live and no connection is open. -/
theorem forgotten_boot_lives :
    afterClose ∈ visited (CoordinatorServer.step Float) {}
        (oneClient [helloFrame, secondHello] ++ [.close 0]) ∧
      afterClose.dir.workerLive ⟨1⟩ = true ∧ afterClose.connections.values = [] ∧
      ¬ afterClose.SessionsOwned := by
  have hlive : afterClose.dir.workerLive ⟨1⟩ = true := by decide +kernel
  have hclosed : afterClose.connections.values = [] := by decide +kernel
  refine ⟨after_mem_visited _ _ _, hlive, hclosed, fun howned => ?_⟩
  obtain ⟨c, hc, _⟩ := howned ⟨1⟩ hlive
  rw [hclosed] at hc
  cases hc

theorem sessionsOwned_oneClient :
    Follows (CoordinatorServer.step Float) CoordinatorServer.Event.Clears {}
        (oneClient [helloFrame] ++ [.close 0]) ↔
      ∀ s ∈ visited (CoordinatorServer.step Float) {} (oneClient [helloFrame] ++ [.close 0]),
        s.SessionsOwned :=
  sessionsOwned_iff Float none {} rfl (oneClient [helloFrame] ++ [.close 0])

end CacheDirectory
