/-
  File:      CacheDirectory/Wire/InStep.lean
  Subject:   REQUESTS AND RESPONSES IN STEP.

  The client reads the bytes of its connection, one frame behind each request it sends. It gets
  out of step with the server in two ways: a request that is answered twice, and an answer the
  channel refuses, whose payload then stays in the socket.

  * `repliesRead_iff` -- what the client reads are the frames that were sent, exactly when the
    channel takes them all;
  * `handle_passes_iff` -- a frame is answered with one frame that the channel takes, exactly when
    it is no stray invalidation and no query whose answer is above the limit of a payload;
  * `inStep_iff` -- the connection of an id is in step in every state of a run exactly when all
    frames that arrive on it are so.
-/
import CacheDirectory.Wire.Answers
import CacheDirectory.Wire.Sockets

namespace CacheDirectory

open Library Protocol Directory CoordinatorServer

/-! ## 1. What the client reads -/

/-- `send_recv` on the bytes that are under way: the frame it got, and what it leaves behind. -/
def DcdClient.sendRecv (incoming : Bytes) : Option Frame × Bytes :=
  match FrameChannel.receive incoming with
  | (.error _, rest) => (none, rest)
  | (.ok (k, p), rest) => (some { kind := ofByte k, payload := p }, rest)

/-- What a client gets for its first `n` requests. -/
def DcdClient.repliesRead : Nat → Bytes → List (Option Frame)
  | 0, _ => []
  | n + 1, incoming =>
      (DcdClient.sendRecv incoming).1 :: DcdClient.repliesRead n (DcdClient.sendRecv incoming).2

/-- Requests and responses are in step: one reply was sent for each request, and out of the bytes
    of the connection the client reads it behind that request. -/
def Connection.InStep (c : Connection) : Prop :=
  ∃ replies : List Frame, c.exchanges.map (·.answers) = replies.map (fun a => [a]) ∧
    DcdClient.repliesRead c.exchanges.length (onChannel c.sent) = replies.map some

section Client

variable {f : Frame} {fs : List Frame}

/-- What the channel takes is sent whole. -/
theorem cut_of_passes (h : f.Passes) : f.cut = f := by
  unfold Frame.cut
  rw [toNat_length h.2, List.take_length]

/-- A client that gets the frame that was sent got one the channel takes. -/
theorem sendRecv_onChannel : (DcdClient.sendRecv (onChannel (f :: fs))).1 = some f ↔ f.Passes := by
  rw [onChannel_cons]
  unfold DcdClient.sendRecv
  by_cases hpass : f.cut.Passes
  · rw [receive_passes hpass]
    simp only [ofByte_toByte, Option.some.injEq]
    constructor
    · intro h
      rw [show f.cut = f from h] at hpass
      exact hpass
    · exact cut_of_passes
  · obtain ⟨e, left, hrefused⟩ := receive_refused hpass (onChannel fs)
    rw [hrefused]
    refine iff_of_false nofun fun h => hpass ?_
    rw [cut_of_passes h]
    exact h

theorem sendRecv_passes (h : f.Passes) :
    DcdClient.sendRecv (onChannel (f :: fs)) = (some f, onChannel fs) := by
  have hcut := cut_of_passes h
  have hpass : f.cut.Passes := hcut.symm ▸ h
  rw [onChannel_cons]
  unfold DcdClient.sendRecv
  rw [receive_passes hpass, hcut]
  simp only [ofByte_toByte]

/-- **The client reads the frames that were sent exactly when the channel takes them all.** -/
theorem repliesRead_iff : ∀ fs : List Frame,
    DcdClient.repliesRead fs.length (onChannel fs) = fs.map some ↔ ∀ f ∈ fs, f.Passes
  | [] => by simp [DcdClient.repliesRead]
  | f :: fs => by
      rw [List.length_cons, DcdClient.repliesRead, List.map_cons, List.cons.injEq,
        sendRecv_onChannel, List.forall_mem_cons]
      refine and_congr_right fun h => ?_
      rw [sendRecv_passes h]
      exact repliesRead_iff fs

/-- Single answers are what was sent, one for each request. -/
theorem sent_of_singles {c : Connection} {replies : List Frame}
    (h : c.exchanges.map (·.answers) = replies.map fun a => [a]) :
    c.sent = replies ∧ c.exchanges.length = replies.length := by
  constructor
  · unfold Connection.sent
    rw [List.flatMap_def, h, ← List.flatMap_def]
    exact List.flatMap_singleton' replies
  · simpa using congrArg List.length h

/-- **A connection is in step exactly when every request has one answer that the channel takes.** -/
theorem inStep_iff_exchanges {c : Connection} :
    c.InStep ↔ ∀ x ∈ c.exchanges, ∃ a, x.answers = [a] ∧ a.Passes := by
  constructor
  · rintro ⟨replies, hmap, hread⟩ x hx
    obtain ⟨hsent, hlength⟩ := sent_of_singles hmap
    rw [hsent, hlength, repliesRead_iff] at hread
    have hmem : x.answers ∈ c.exchanges.map (·.answers) := List.mem_map_of_mem hx
    rw [hmap] at hmem
    obtain ⟨a, ha, hanswers⟩ := List.mem_map.mp hmem
    exact ⟨a, hanswers.symm, hread a ha⟩
  · intro h
    have hreplies : ∃ replies : List Frame,
        c.exchanges.map (·.answers) = replies.map (fun a => [a]) ∧ ∀ a ∈ replies, a.Passes := by
      generalize c.exchanges = xs at h
      induction xs with
      | nil => exact ⟨[], rfl, fun a ha => absurd ha List.not_mem_nil⟩
      | cons x xs ih =>
          obtain ⟨a, ha, hpass⟩ := h x List.mem_cons_self
          obtain ⟨replies, hmap, hall⟩ := ih fun y hy => h y (List.mem_cons_of_mem _ hy)
          refine ⟨a :: replies, ?_, List.forall_mem_cons.mpr ⟨hpass, hall⟩⟩
          rw [List.map_cons, List.map_cons, ha, hmap]
    obtain ⟨replies, hmap, hpass⟩ := hreplies
    obtain ⟨hsent, hlength⟩ := sent_of_singles hmap
    refine ⟨replies, hmap, ?_⟩
    rw [hsent, hlength]
    exact (repliesRead_iff replies).mpr hpass

end Client

/-! ## 2. One frame -/

section Frame

variable {F : Type} [WireDouble F] {w : Surroundings} {d : Directory}

/-- What the client can read it can receive. -/
theorem passes_of_readable {request : MessageKind} {x : QueryResult F64} {a : Frame}
    (h : Readable request x a) : a.Passes := by
  refine ⟨?_, h.size⟩
  have haccepted := h.accepted
  unfold DcdClient.accepts at haccepted
  cases hkind : a.kind with
  | ack => decide
  | error => decide
  | queryResult => decide
  | _ =>
      rw [hkind] at haccepted
      cases haccepted

theorem passes_failure {f : Failure} (h : f.Terse) : (respondFailure f).Passes := by
  have hreadable : Readable .save {} (respondFailure f) := readable_failure h
  exact passes_of_readable hreadable

theorem passes_malformed {text : String} (h : (ascii text).length ≤ 1 <<< 20) :
    (respondMalformed text).Passes := by
  have hreadable : Readable .save {} (respondMalformed text) := readable_malformed h
  exact passes_of_readable hreadable

theorem passes_ack {m : Bytes} (h : m.length ≤ 2 ^ 21) :
    (respondAck { message := m }).Passes := by
  refine ⟨show ¬ toByte MessageKind.ack > toByte MessageKind.error by decide, ?_⟩
  show (serializeAck { message := m }).length ≤ _
  unfold serializeAck
  rw [List.length_append, length_flag, length_string, maxPayload_toNat]
  show 1 + (8 + m.length) ≤ _
  omega

theorem passes_short {m : Bytes} (h : m.length ≤ 1 <<< 20) :
    (respondAck { message := m }).Passes :=
  passes_ack (Nat.le_trans h (by decide))

/-- The channel takes all answers to an invalidation. -/
theorem passes_invalidate (payload : Bytes) :
    ∀ a ∈ (CoordinatorServer.invalidate w payload d).1, a.Passes := by
  unfold CoordinatorServer.invalidate
  cases hm : deserializeInvalidate payload with
  | error e => exact List.forall_mem_singleton.mpr (passes_malformed (by decide))
  | ok m =>
      have hshort := reason_le hm
      have hnotice := noticeLength_le d m
      by_cases hkind : m.kind.toNat ≤ 4
      · rcases invalidateByKind_spec (w := w) (d := d) m hkind with
          ⟨_, hout⟩ | ⟨_, r, d', hout, hlen⟩
        · simp only [hout]
          exact List.forall_mem_singleton.mpr (passes_failure (by decide))
        · simp only [hout]
          exact List.forall_mem_singleton.mpr (passes_ack (by rw [hlen]; omega))
      · simp only [invalidateByKind_unknown hkind]
        refine List.forall_mem_cons.mpr ⟨passes_malformed (by decide), ?_⟩
        exact List.forall_mem_singleton.mpr (passes_failure (by decide))

/-- The answer to the frame, if it is a query, is within the limit of a payload. -/
def ResultPasses (d : Directory) (frame : Frame) : Prop :=
  frame.kind = .query → ∀ q, deserializeQuery {} frame.payload = .ok q →
    resultSize d q ≤ maxPayload.toNat

/-- The answer to a query. -/
theorem passes_query_iff (h : d.IndexFits) (payload : Bytes) :
    (∀ a ∈ (CoordinatorServer.query F w payload d).1, a.Passes) ↔
      ∀ q, deserializeQuery {} payload = .ok q → resultSize d q ≤ maxPayload.toNat := by
  unfold CoordinatorServer.query
  cases hq : deserializeQuery {} payload with
  | error e =>
      refine iff_of_true ?_ fun q hok => by cases hok
      exact List.forall_mem_singleton.mpr (passes_malformed (by decide))
  | ok q =>
      simp only [Except.ok.injEq, forall_eq', query_onWire h q]
      have hkind : ¬ toByte MessageKind.queryResult > toByte MessageKind.error := by decide
      rw [List.forall_mem_singleton, ← length_result (F := F) d q]
      exact and_iff_right hkind

/-- **A frame is answered with one frame that the channel takes** exactly when it is no stray
    invalidation and no query with too much to answer. -/
theorem handle_passes_iff (hd : d.IndexFits) (frame : Frame) (h : Handler) :
    (∃ a, (handle F w frame h d).1 = [a] ∧ a.Passes) ↔
      ¬ frame.Stray ∧ ResultPasses d frame := by
  have hpasses : (∀ a ∈ (handle F w frame h d).1, a.Passes) ↔ ResultPasses d frame := by
    obtain ⟨kind, payload⟩ := frame
    by_cases hinvalidate : kind = .invalidate
    · subst hinvalidate
      exact iff_of_true (passes_invalidate payload) fun h => by cases h
    by_cases hquery : kind = .query
    · subst hquery
      refine (passes_query_iff (F := F) hd payload).trans ?_
      exact ⟨fun h _ => h, fun h => h rfl⟩
    · refine iff_of_true (fun a ha => ?_) fun h => absurd h hquery
      exact passes_of_readable (readable_others (x := {}) _ h hinvalidate hquery a ha)
  rw [← handle_answers (F := F) (w := w) (d := d) frame h, ← hpasses]
  constructor
  · rintro ⟨a, ha, hpass⟩
    exact ⟨⟨a, ha⟩, by rw [ha]; exact List.forall_mem_singleton.mpr hpass⟩
  · rintro ⟨⟨a, ha⟩, hall⟩
    exact ⟨a, ha, hall a (by rw [ha]; exact List.mem_singleton.mpr rfl)⟩

end Frame

/-! ## 3. Runs -/

/-- The event brings the connection of the id no frame that is answered twice, and none whose
    answer the channel refuses. -/
def CoordinatorServer.Event.KeepsStep (id : Nat) (e : Event) (s : CoordinatorServer) : Prop :=
  match e with
  | .frame i _ f => i = id → (s.connections.find id).isSome = true →
      ¬ f.Stray ∧ ResultPasses s.dir f
  | _ => True

/-- The connection of the id is in step, when it is open. -/
def CoordinatorServer.InStepAt (id : Nat) (s : CoordinatorServer) : Prop :=
  ∀ c, s.connections.find id = some c → c.InStep

section Runs

variable {F : Type} [WireDouble F]

/-- **One event keeps the connection in step exactly when it brings no such frame.** -/
theorem keepsStep_iff (id : Nat) (e : Event) (s : CoordinatorServer) (hd : s.dir.IndexFits)
    (h : s.InStepAt id) : e.KeepsStep id s ↔ (step F e s).InStepAt id := by
  cases e with
  | accept i =>
      refine iff_of_true trivial fun c hc => ?_
      unfold step at hc
      simp only at hc
      split at hc
      · exact h c hc
      · rw [KeyedMap.find_put] at hc
        split at hc
        · cases hc
          exact inStep_iff_exchanges.mpr fun x hx => absurd hx List.not_mem_nil
        · exact h c hc
  | frame i w f =>
      cases hfind : s.connections.find i with
      | none =>
          have hsame : step F (.frame i w f) s = s := by simp only [step, hfind]
          rw [hsame]
          refine iff_of_true (fun hi hopen => ?_) h
          rw [← hi, hfind] at hopen
          cases hopen
      | some c =>
          by_cases hi : i = id
          · subst hi
            have hold := inStep_iff_exchanges.mp (h c hfind)
            have hkey : c.id = i := (KeyedMap.find_eq_some.mp hfind).2
            have hone := handle_passes_iff (F := F) (w := w) hd f c.handler
            rw [step_frame hfind]
            unfold InStepAt
            simp only [KeyedMap.find_put, hkey, if_true, Option.some.injEq, forall_eq',
              inStep_iff_exchanges, List.forall_mem_append, List.forall_mem_singleton,
              and_iff_right hold, hone]
            exact ⟨fun hkeeps => hkeeps rfl (by rw [hfind]; rfl), fun hgood _ _ => hgood⟩
          · refine iff_of_true (fun heq => absurd heq hi) fun c' hc' => ?_
            have hkey : c.id = i := (KeyedMap.find_eq_some.mp hfind).2
            rw [step_frame hfind] at hc'
            simp only [KeyedMap.find_put, hkey, if_neg hi] at hc'
            exact h c' hc'
  | close i =>
      refine iff_of_true trivial fun c hc => ?_
      cases hfind : s.connections.find i with
      | none =>
          simp only [step, hfind] at hc
          exact h c hc
      | some c₀ =>
          rw [step_close hfind, KeyedMap.find_erase] at hc
          split at hc
          · cases hc
          · exact h c hc

/-- **Requests and responses are in step** on the connection of an id, in every state of a run of
    the server, exactly when every frame that arrives on it has one answer and the channel takes
    that: whatever directory operations reach the server starts on, and whatever happens on the
    other connections. -/
theorem inStep_iff (F : Type) [WireDouble F] (ops : List Operation) (events : List Event)
    (id : Nat) :
    Follows (step F) (Event.KeepsStep id) { dir := after (Operation.step F) {} ops } events ↔
      ∀ s ∈ visited (step F) { dir := after (Operation.step F) {} ops } events,
        ∀ c, s.connections.find id = some c → c.InStep := by
  have hknown : ∀ s ∈ visited (step F) { dir := after (Operation.step F) {} ops } events,
      ∃ ops, s.dir = after (Operation.step F) {} ops :=
    visited_invariant (fun e (s : CoordinatorServer) => reached_next (F := F) e (s := s))
      ⟨ops, rfl⟩ events
  have hstep (e : Event) (s : CoordinatorServer)
      (h : (∃ ops, s.dir = after (Operation.step F) {} ops) ∧ s.InStepAt id) :
      e.KeepsStep id s ↔
        (∃ ops, (step F e s).dir = after (Operation.step F) {} ops) ∧ (step F e s).InStepAt id := by
    obtain ⟨⟨ops, hops⟩, hin⟩ := h
    have hfits : s.dir.IndexFits := by
      rw [hops]
      exact indexFits_reached (F := F) (after_mem_visited _ _ _)
    rw [and_iff_right (reached_next e ⟨ops, hops⟩)]
    exact keepsStep_iff id e s hfits hin
  rw [follows_iff_visited hstep events _ ⟨⟨ops, rfl⟩, fun c hc => by cases hc⟩]
  exact forall₂_congr fun s hs => and_iff_right (hknown s hs)

end Runs

/-! ## 4. A stray invalidation -/

/-- INVALIDATE of kind 5. -/
def strayFrame : Frame :=
  { kind := .invalidate
    payload := serializeInvalidate
      { kind := 5, target := 1, generation := 1, env := {}, reason := [] } }

/-- A HELLO behind the stray frame on one connection. -/
def behindStray : CoordinatorServer :=
  after (step Float) {} (oneClient [strayFrame, helloFrame])

/-- **The counterexample**: the HELLO behind the stray frame is accepted, and the client reads an
    error for it. -/
theorem stray_shifts_answers :
    ∃ c, behindStray.connections.find 0 = some c ∧
      c.exchanges.map (fun x => x.answers.map (·.kind)) = [[.error, .error], [.ack]] ∧
      (DcdClient.repliesRead 2 (onChannel c.sent)).map (Option.map (·.kind)) =
        [some .error, some .error] ∧
      ¬ c.InStep := by
  obtain ⟨c, hc⟩ := Option.isSome_iff_exists.mp
    (show (behindStray.connections.find 0).isSome = true by decide +kernel)
  have hkinds : (behindStray.connections.find 0).map
      (fun c => c.exchanges.map fun x => x.answers.map (·.kind)) =
        some [[.error, .error], [.ack]] := by
    decide +kernel
  have hreads : (behindStray.connections.find 0).map
      (fun c => (DcdClient.repliesRead 2 (onChannel c.sent)).map (Option.map (·.kind))) =
        some [some .error, some .error] := by
    decide +kernel
  rw [hc] at hkinds hreads
  have htwice : c.exchanges.map (fun x => x.answers.map (·.kind)) = [[.error, .error], [.ack]] :=
    Option.some.inj hkinds
  refine ⟨c, hc, htwice, Option.some.inj hreads, fun hin => ?_⟩
  obtain ⟨x, hx, hanswers⟩ := List.mem_map.mp
    (show [MessageKind.error, .error] ∈ c.exchanges.map fun x => x.answers.map (·.kind) by
      rw [htwice]
      exact List.mem_cons_self)
  obtain ⟨a, hone, _⟩ := inStep_iff_exchanges.mp hin x hx
  rw [hone] at hanswers
  cases congrArg List.length hanswers

/-- A connection with a HELLO on it is in step. -/
theorem inStep_helloFrame :
    ∀ s ∈ visited (step Float) {} (oneClient [helloFrame]),
      ∀ c, s.connections.find 0 = some c → c.InStep :=
  (inStep_iff Float [] (oneClient [helloFrame]) 0).mp
    ⟨trivial, fun _ _ => ⟨fun h => MessageKind.noConfusion h.1, fun h => MessageKind.noConfusion h⟩,
      trivial⟩

end CacheDirectory
