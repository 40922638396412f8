/-
  File:      CacheDirectory/Wire/Sockets.lean
  Subject:   FRAMES OVER SOCKETS.

  The other modules of Wire speak about the bytes of a connection, or about its frames. Here both
  are what the calls on sockets come to: whatever pieces `recv` and `send` move, and wherever the
  connection breaks.

  * `receiveOn_spec`, `sendFrame_spec` -- the channel on a socket, in terms of its bytes;
  * `carries_delivered` -- a connection that broke carries the frames that arrived whole, up to
    the first the receiver refuses;
  * `frames_transferred` -- what a receiver gets of the frames somebody sent;
  * `wired_refines` -- the server on its sockets is the server on queues of frames, for every
    schedule of its threads.
-/
import CacheDirectory.Model.Transport
import CacheDirectory.Wire.Connections

namespace CacheDirectory

open Library Protocol

/-! ## 1. The channel on a socket -/

/-- The bytes still to be read. -/
def TcpStream.bytes (s : TcpStream) : Bytes := Socket.incomingBytes s.incoming

section Channel

variable {s : TcpStream} {n : Nat}

theorem blockingReadExact_of_le (h : n ≤ s.bytes.length) :
    ∃ incoming, s.blockingReadExact n =
        (some (s.bytes.take n), { s with incoming := incoming }) ∧
      Socket.incomingBytes incoming = s.bytes.drop n := by
  obtain ⟨t, hloop, hleft⟩ := Socket.receiving.collect_of_le (n := n) [] s.incoming
    (Nat.zero_le n) (by rw [List.length_nil, Nat.zero_add]; exact h)
  refine ⟨t, ?_, hleft⟩
  unfold TcpStream.blockingReadExact
  rw [hloop]
  rfl

theorem blockingReadExact_of_lt (h : s.bytes.length < n) :
    ∃ incoming, s.blockingReadExact n = (none, { s with incoming := incoming }) ∧
      Socket.incomingBytes incoming = [] := by
  obtain ⟨t, hloop, hleft⟩ := Socket.receiving.collect_of_lt (n := n) [] s.incoming
    (by rw [List.length_nil, Nat.zero_add]; exact h)
  refine ⟨t, ?_, hleft⟩
  unfold TcpStream.blockingReadExact
  rw [hloop]

/-- **Receiving on a socket is receiving on its bytes**, however they are cut into segments. -/
theorem receiveOn_spec (hvalid : s.valid = true) :
    ∃ incoming, FrameChannel.receiveOn s =
        ((FrameChannel.receive s.bytes).1, { s with incoming := incoming }) ∧
      Socket.incomingBytes incoming = (FrameChannel.receive s.bytes).2 := by
  unfold FrameChannel.receiveOn FrameChannel.receiveTimeout FrameChannel.receive
  simp only [hvalid, Bool.not_true, Bool.false_eq_true, if_false, reduceCtorEq, Option.any_none]
  by_cases hheader : s.bytes.length < 17
  · obtain ⟨incoming, hread, hleft⟩ := blockingReadExact_of_lt hheader
    rw [hread, if_pos hheader]
    exact ⟨incoming, rfl, hleft⟩
  obtain ⟨incoming, hread, hleft⟩ := blockingReadExact_of_le (Nat.le_of_not_lt hheader)
  rw [hread, if_neg hheader]
  dsimp only
  generalize UInt32.ofNat (ofLittleEndian (((s.bytes.take 17).drop 9).take 4)) = len
  by_cases hmax : len > maxPayload
  · rw [if_pos hmax, if_pos hmax]
    exact ⟨incoming, rfl, hleft⟩
  rw [if_neg hmax, if_neg hmax]
  -- behind the header the stream holds what the byte list has behind it
  have hbehind : TcpStream.bytes { s with incoming := incoming } = s.bytes.drop 17 := hleft
  by_cases hpayload : (s.bytes.drop 17).length < len.toNat
  · obtain ⟨incoming', hread', hleft'⟩ := blockingReadExact_of_lt (hbehind ▸ hpayload)
    rw [hread', if_pos hpayload]
    exact ⟨incoming', rfl, hleft'⟩
  obtain ⟨incoming', hread', hleft'⟩ :=
    blockingReadExact_of_le (hbehind ▸ Nat.le_of_not_lt hpayload)
  rw [hread', if_neg hpayload]
  rw [hbehind] at hleft' ⊢
  dsimp only
  cases decodeFrame (s.bytes.take 17 ++ (s.bytes.drop 17).take len.toNat) with
  | error e => exact ⟨incoming', rfl, hleft'⟩
  | ok x => exact ⟨incoming', rfl, hleft'⟩

/-- **Sending on a socket** leaves a leading part of the frame behind, and less than all of it
    only when the socket takes no more. -/
theorem sendFrame_spec (hvalid : s.valid = true) (f : Frame) :
    ∃ out m, WiredServer.sendFrame s f = { s with outgoing := out } ∧
      out.taken = s.outgoing.taken ++ (FrameChannel.send (toByte f.kind) f.payload).take m ∧
      (out.room = [] ∨ m = (FrameChannel.send (toByte f.kind) f.payload).length) := by
  unfold WiredServer.sendFrame FrameChannel.sendOn TcpStream.blockingWriteAll
  simp only [hvalid, Bool.not_true, Bool.false_eq_true, if_false]
  rw [← FrameChannel.send]
  generalize FrameChannel.send (toByte f.kind) f.payload = image
  obtain ⟨m, hm, htaken, hdone⟩ := Socket.sending.push_spec image 0 s.outgoing (Nat.zero_le _)
  rw [Nat.zero_add] at hdone
  rw [List.drop_zero] at htaken
  cases hpush : (Socket.sending.push image 0 s.outgoing).1 with
  | true => exact ⟨_, m, rfl, htaken, .inr (hdone.mp hpush)⟩
  | false =>
      obtain ⟨rest, hrest, hrefused⟩ := Socket.sending.push_refused image 0 s.outgoing hpush
      refine ⟨_, m, rfl, htaken, .inl ?_⟩
      cases hroom : (Socket.sending.push image 0 s.outgoing).2.room with
      | nil => rfl
      | cons k ks =>
          simp only [Socket.sending, Socket.send, dif_neg hrest] at hrefused hroom
          rw [hroom] at hrefused
          cases hrefused

/-- A socket that takes no more leaves nothing of a frame behind. -/
theorem sendFrame_full (hvalid : s.valid = true) (hroom : s.outgoing.room = []) (f : Frame) :
    WiredServer.sendFrame s f = s := by
  have himage : 0 < (FrameChannel.send (toByte f.kind) f.payload).length := by
    unfold FrameChannel.send
    rw [encodeFrame_eq, List.length_append, length_header]
    omega
  unfold WiredServer.sendFrame FrameChannel.sendOn TcpStream.blockingWriteAll
  simp only [hvalid, Bool.not_true, Bool.false_eq_true, if_false]
  rw [← FrameChannel.send, Sink.push, dif_pos himage]
  have hrefused (l : Bytes) : Socket.sending.offer l s.outgoing = none := by
    simp only [Socket.sending, Socket.send, hroom]
  rw [hrefused]
  rfl

theorem sendFrames_full (hvalid : s.valid = true) (hroom : s.outgoing.room = []) :
    ∀ fs : List Frame, fs.foldl WiredServer.sendFrame s = s
  | [] => rfl
  | f :: fs => by
      rw [List.foldl_cons, sendFrame_full hvalid hroom]
      exact sendFrames_full hvalid hroom fs

theorem onChannel_cons (f : Frame) (fs : List Frame) :
    onChannel (f :: fs) = FrameChannel.send (toByte f.kind) f.payload ++ onChannel fs := rfl

/-- **Sending frames one after the other** leaves a leading part of all their bytes behind: what
    follows a frame that could not be sent is not sent either. -/
theorem sendFrames_spec (hvalid : s.valid = true) (fs : List Frame) :
    ∃ out m, fs.foldl WiredServer.sendFrame s = { s with outgoing := out } ∧
      out.taken = s.outgoing.taken ++ (onChannel fs).take m ∧
      (out.room = [] ∨ m = (onChannel fs).length) := by
  induction fs generalizing s with
  | nil => exact ⟨s.outgoing, 0, rfl, by simp [onChannel], .inr rfl⟩
  | cons f fs ih =>
      rw [List.foldl_cons, onChannel_cons]
      obtain ⟨out, m, hsent, htaken, hdone⟩ := sendFrame_spec hvalid f
      rw [hsent]
      rcases hdone with hroom | hall
      · refine ⟨out, min m (FrameChannel.send (toByte f.kind) f.payload).length,
          sendFrames_full (s := { s with outgoing := out }) hvalid hroom fs, ?_, .inl hroom⟩
        rw [htaken, List.take_append_of_le_length (Nat.min_le_right _ _), ← List.take_eq_take_min]
      · obtain ⟨out', m', hrest, htaken', hdone'⟩ := ih (s := { s with outgoing := out }) hvalid
        refine ⟨out', m + m', hrest, ?_, hdone'.imp id ?_⟩
        · rw [htaken', htaken, hall, List.take_length, List.take_length_add_append,
            List.append_assoc]
        · intro hm'
          rw [List.length_append, hall, hm']

end Channel

/-! ## 2. What a broken connection carries -/

/-- The frame whose bytes are sent: the length goes through 32 bits. -/
def Protocol.Frame.cut (f : Frame) : Frame :=
  { f with payload := f.payload.take (UInt32.ofNat f.payload.length).toNat }

/-- The receiver takes the frame. -/
def Protocol.Frame.Passes (f : Frame) : Prop :=
  ¬ toByte f.kind > toByte MessageKind.error ∧ f.payload.length ≤ maxPayload.toNat

instance (f : Frame) : Decidable f.Passes := inferInstanceAs (Decidable (_ ∧ _))

/-- The frames a receiver gets when the first `n` bytes of the given ones arrive: those that
    arrive whole, up to the first it refuses. -/
def delivered (n : Nat) (fs : List Frame) : List Frame :=
  ((fs.map Frame.cut).take
    (whole n (fs.map fun f => FrameChannel.send (toByte f.kind) f.payload))).takeWhile
      fun f => decide f.Passes

/-- The bytes hold these frames and then nothing that can be received. -/
def Carries : List Frame → Bytes → Prop
  | [], bytes => ∃ e rest, FrameChannel.receive bytes = (.error e, rest)
  | f :: fs, bytes => ∃ rest,
      FrameChannel.receive bytes = (.ok (toByte f.kind, f.payload), rest) ∧ Carries fs rest

section Broken

variable {f : Frame}

theorem send_cut (f : Frame) :
    FrameChannel.send (toByte f.kind) f.payload = encodeFrame f.kind f.cut.payload := by
  unfold FrameChannel.send Frame.cut
  rw [ofByte_toByte]

/-- What is sent has a length that 32 bits hold. -/
theorem cut_toNat (f : Frame) :
    (UInt32.ofNat f.cut.payload.length).toNat = f.cut.payload.length := by
  have hle : (UInt32.ofNat f.payload.length).toNat ≤ f.payload.length := by
    rw [UInt32.toNat_ofNat']
    exact Nat.mod_le _ _
  unfold Frame.cut
  rw [List.length_take, Nat.min_eq_left hle, UInt32.ofNat_toNat]

theorem length_image (f : Frame) :
    (FrameChannel.send (toByte f.kind) f.payload).length = 17 + f.cut.payload.length := by
  rw [send_cut, encodeFrame_eq, List.length_append, length_header]

/-- The channel behind the header of a frame. -/
theorem receive_header (kind : MessageKind) (payload behind : Bytes) :
    FrameChannel.receive (header kind payload ++ behind) =
      if UInt32.ofNat payload.length > maxPayload then
        (.error (.refused "oversized payload"), behind)
      else if behind.length < (UInt32.ofNat payload.length).toNat then
        (.error (.refused "eof/connection closed (payload)"), [])
      else
        match decodeFrame (header kind payload ++
            behind.take (UInt32.ofNat payload.length).toNat) with
        | .error e => (.error e, behind.drop (UInt32.ofNat payload.length).toNat)
        | .ok (frame, _) => (.ok (toByte frame.kind, frame.payload),
            behind.drop (UInt32.ofNat payload.length).toNat) := by
  unfold FrameChannel.receive
  rw [if_neg (by rw [List.length_append, length_header]; omega)]
  rewrite [take_header, drop_header]
  dsimp only
  rewrite [header_length_field]
  rfl

/-- A frame the receiver takes arrives. -/
theorem receive_passes (h : f.cut.Passes) (rest : Bytes) :
    FrameChannel.receive (FrameChannel.send (toByte f.kind) f.payload ++ rest) =
      (.ok (toByte f.cut.kind, f.cut.payload), rest) := by
  have hdec := decodeFrame_encoded h.2 h.1 []
  rw [List.append_nil] at hdec
  have hsent := receive_sent h.2 rest hdec
  rw [send_eq h.2] at hsent
  rw [send_cut]
  exact hsent

/-- A frame the receiver refuses ends the reading. -/
theorem receive_refused (h : ¬ f.cut.Passes) (rest : Bytes) :
    ∃ e left, FrameChannel.receive (FrameChannel.send (toByte f.kind) f.payload ++ rest) =
      (.error e, left) := by
  rw [send_cut, encodeFrame_eq, List.append_assoc, receive_header]
  by_cases hmax : UInt32.ofNat f.cut.payload.length > maxPayload
  · exact ⟨_, _, if_pos hmax⟩
  have hp : f.cut.payload.length ≤ maxPayload.toNat := by
    rw [gt_iff_lt, UInt32.lt_iff_toNat_lt, cut_toNat, Nat.not_lt] at hmax
    exact hmax
  have hkind : toByte f.kind > toByte MessageKind.error := by
    by_contra hk
    exact h ⟨hk, hp⟩
  obtain ⟨e, he⟩ := decodeFrame_refused hp hkind []
  rw [List.append_nil, encodeFrame_eq] at he
  rw [if_neg hmax, cut_toNat, if_neg (by rw [List.length_append]; omega), List.take_left, he]
  exact ⟨_, _, rfl⟩

/-- Less than a frame cannot be received. -/
theorem receive_broken {m : Nat} (h : m < (FrameChannel.send (toByte f.kind) f.payload).length) :
    ∃ e left, FrameChannel.receive ((FrameChannel.send (toByte f.kind) f.payload).take m) =
      (.error e, left) := by
  rw [length_image] at h
  rw [send_cut, encodeFrame_eq]
  by_cases hheader : m < 17
  · refine ⟨_, _, if_pos ?_⟩
    rw [List.length_take]
    omega
  · have hsplit : (header f.kind f.cut.payload ++ f.cut.payload).take m =
        header f.kind f.cut.payload ++ f.cut.payload.take (m - 17) := by
      rw [List.take_append, length_header, List.take_of_length_le]
      rw [length_header]
      omega
    rw [hsplit, receive_header, cut_toNat]
    split
    · exact ⟨_, _, rfl⟩
    · rw [if_pos (by rw [List.length_take]; omega)]
      exact ⟨_, _, rfl⟩

/-- **A connection that broke carries the frames that arrived whole**, up to the first one the
    receiver refuses. -/
theorem carries_delivered (n : Nat) (fs : List Frame) :
    Carries (delivered n fs) ((onChannel fs).take n) := by
  induction fs generalizing n with
  | nil =>
      rw [show onChannel [] = [] from rfl, List.take_nil]
      exact ⟨_, _, rfl⟩
  | cons f fs ih =>
      rw [onChannel_cons]
      unfold delivered
      rw [List.map_cons, List.map_cons, whole]
      by_cases hfits : (FrameChannel.send (toByte f.kind) f.payload).length ≤ n
      · rw [if_pos hfits, List.take_succ_cons, List.takeWhile_cons, List.take_append,
          List.take_of_length_le hfits]
        by_cases hpass : f.cut.Passes
        · rw [decide_eq_true hpass, if_pos rfl]
          exact ⟨_, receive_passes hpass _, ih _⟩
        · rw [decide_eq_false hpass, if_neg Bool.false_ne_true]
          exact receive_refused hpass _
      · rw [if_neg hfits, List.take_zero, List.takeWhile_nil,
          List.take_append_of_le_length (Nat.le_of_not_le hfits)]
        exact receive_broken (Nat.lt_of_not_le hfits)

/-- A leading part of the bytes is what the first of them are. -/
theorem carries_of_leading {bytes : Bytes} {fs : List Frame} (h : bytes <+: onChannel fs) :
    Carries (delivered bytes.length fs) bytes := by
  have hcarries := carries_delivered bytes.length fs
  rwa [← List.prefix_iff_eq_take.mp h] at hcarries

end Broken

/-! ## 3. One direction -/

/-- At most `n` times `receive`, up to the first failure. -/
def TcpStream.framesRead : Nat → TcpStream → List Frame
  | 0, _ => []
  | n + 1, s =>
      match FrameChannel.receiveOn s with
      | (.error _, _) => []
      | (.ok (kind, payload), s) =>
          { kind := ofByte kind, payload := payload } :: TcpStream.framesRead n s

theorem framesRead_of_carries {s : TcpStream} (hvalid : s.valid = true) {fs : List Frame}
    (h : Carries fs s.bytes) (n : Nat) : s.framesRead n = fs.take n := by
  induction n generalizing s fs with
  | zero => rfl
  | succ n ih =>
      obtain ⟨incoming, hreceive, hleft⟩ := receiveOn_spec hvalid
      unfold TcpStream.framesRead
      rw [hreceive]
      cases fs with
      | nil =>
          obtain ⟨e, left, hfail⟩ := h
          rw [hfail]
          rfl
      | cons f fs =>
          obtain ⟨left, hgot, hrest⟩ := h
          rw [hgot] at hleft ⊢
          have hnext : Carries fs (TcpStream.bytes { s with incoming := incoming }) := by
            rw [TcpStream.bytes, hleft]
            exact hrest
          simp only [ofByte_toByte, List.take_succ_cons]
          rw [ih (s := { s with incoming := incoming }) hvalid hnext]

/-- **What a receiver gets of the frames somebody sent**: whatever the calls of `send` took,
    wherever the connection broke and however the bytes were cut, it reads the frames that arrived
    whole, in the order they were sent, up to the first it refuses, and then fails. -/
theorem frames_transferred (sender receiver : TcpStream) (fs : List Frame) (n : Nat)
    (hsender : sender.valid = true) (hfresh : sender.outgoing.taken = [])
    (hreceiver : receiver.valid = true)
    (harrived : receiver.bytes <+: (fs.foldl WiredServer.sendFrame sender).outgoing.taken) :
    receiver.framesRead n = (delivered receiver.bytes.length fs).take n := by
  obtain ⟨out, m, hsent, htaken, _⟩ := sendFrames_spec hsender fs
  rw [hsent] at harrived
  have hleading : receiver.bytes <+: onChannel fs := by
    refine harrived.trans ?_
    rw [htaken, hfresh, List.nil_append]
    exact List.take_prefix m _
  exact framesRead_of_carries hreceiver (carries_of_leading hleading) n

/-- A socket that takes twenty bytes, then eight more, and then fails. -/
def brokenSender : TcpStream :=
  { sock := 4, outgoing := { room := [⟨20, by decide⟩, ⟨8, by decide⟩] } }

def twoFrames : List Frame := [{ kind := .hello, payload := [7] }, { kind := .ack, payload := [8] }]

/-- The other end: the first frame in two segments, and six bytes more. -/
def brokenReceiver : TcpStream :=
  { sock := 5
    incoming := [⟨(onChannel twoFrames).take 11, by decide +kernel⟩,
      ⟨((onChannel twoFrames).drop 11).take 7, by decide +kernel⟩,
      ⟨((onChannel twoFrames).drop 18).take 6, by decide +kernel⟩] }

/-- The first frame arrives, the second does not. -/
theorem frames_transferred_broken :
    brokenReceiver.framesRead 2 = [{ kind := .hello, payload := [7] }] :=
  (frames_transferred brokenSender brokenReceiver twoFrames 2 (by decide) rfl (by decide)
    (by decide +kernel)).trans (by decide +kernel)

/-! ## 4. The server on its sockets -/

/-- The server as the frames see it: each connection a queue of the frames it will receive, and
    the frames that were sent on it. -/
structure FrameServer where
  server : CoordinatorServer := {}
  queues : Nat → List Frame := fun _ => []
  answered : Nat → List Frame := fun _ => []

namespace FrameServer

/-- A turn takes the next frame of the queue; an empty queue is the end of the connection. -/
def step (F : Type) [WireDouble F] (e : WiredServer.Event) (s : FrameServer) : FrameServer :=
  match e with
  | .accept id => { s with server := CoordinatorServer.step F (.accept id) s.server }
  | .turn id w =>
      match s.server.connections.find id with
      | none => s
      | some c =>
          match s.queues id with
          | [] => { s with server := CoordinatorServer.step F (.close id) s.server }
          | f :: fs =>
              let answers := (CoordinatorServer.handle F w f c.handler s.server.dir).1
              { server := CoordinatorServer.step F (.frame id w f) s.server
                queues := Function.update s.queues id fs
                answered := Function.update s.answered id (s.answered id ++ answers) }

end FrameServer

/-- What one connection comes to: the stream holds the frames of the queue, unless it was closed
    behind the last one, and of the frames answered so far a leading part has gone out. -/
structure Linked (stream : TcpStream) (queue answered : List Frame) : Prop where
  carries : if stream.valid then Carries queue stream.bytes else queue = []
  gone : ∃ m, stream.outgoing.taken = (onChannel answered).take m ∧
    (stream.outgoing.room = [] ∨ m = (onChannel answered).length)

/-- The server on its sockets and the one on queues. -/
structure Refines (s : WiredServer) (t : FrameServer) : Prop where
  server : s.server = t.server
  linked : ∀ id, Linked (s.streams id) (t.queues id) (t.answered id)

section Wired

variable {F : Type} [WireDouble F]

theorem Linked.close {stream stream' : TcpStream} {answered : List Frame}
    (h : Linked stream [] answered) (hout : stream'.outgoing = stream.outgoing) :
    Linked stream'.close [] answered := by
  have hinvalid : stream'.close.valid = false := by
    unfold TcpStream.close TcpStream.valid
    split
    · rfl
    · next h => simpa using h
  have hsame : stream'.close.outgoing = stream.outgoing := by
    unfold TcpStream.close
    split
    · exact hout
    · exact hout
  refine ⟨by rw [hinvalid]; rfl, ?_⟩
  rw [hsame]
  exact h.gone

/-- A frame is read off the stream. -/
theorem Linked.read {stream : TcpStream} {queue queue' answered : List Frame}
    (h : Linked stream queue answered) (hvalid : stream.valid = true)
    {incoming : List (Piece UInt8)} (hcarries : Carries queue' (Socket.incomingBytes incoming)) :
    Linked { stream with incoming := incoming } queue' answered := by
  refine ⟨?_, h.gone⟩
  rw [if_pos (show TcpStream.valid { stream with incoming := incoming } = true from hvalid)]
  exact hcarries

/-- Answers are sent behind the answers. -/
theorem Linked.answer {stream : TcpStream} {queue answered : List Frame}
    (h : Linked stream queue answered) (hvalid : stream.valid = true) (answers : List Frame) :
    Linked (answers.foldl WiredServer.sendFrame stream) queue (answered ++ answers) := by
  obtain ⟨m, htaken, hdone⟩ := h.gone
  have hboth : onChannel (answered ++ answers) = onChannel answered ++ onChannel answers :=
    List.flatMap_append
  rcases hdone with hroom | hall
  · rw [sendFrames_full hvalid hroom]
    refine ⟨h.carries, min m (onChannel answered).length, ?_, .inl hroom⟩
    rw [htaken, hboth, List.take_append_of_le_length (Nat.min_le_right _ _),
      ← List.take_eq_take_min]
  · obtain ⟨out, m', hsent, htaken', hdone'⟩ := sendFrames_spec hvalid answers
    rw [hsent]
    refine ⟨h.carries, m + m', ?_, hdone'.imp id fun hm' => ?_⟩
    · rw [htaken', htaken, hall, List.take_length, hboth, List.take_length_add_append]
    · rw [hboth, List.length_append, hall, hm']

/-- What one connection is linked to says nothing about the others. -/
theorem Refines.update {s : WiredServer} {t : FrameServer} (h : Refines s t) (id : Nat)
    {stream : TcpStream} {queue answered : List Frame} (server : CoordinatorServer)
    (hlinked : Linked stream queue answered) :
    Refines { server := server, streams := Function.update s.streams id stream }
      { server := server
        queues := Function.update t.queues id queue
        answered := Function.update t.answered id answered } := by
  refine ⟨rfl, fun other => ?_⟩
  by_cases hid : other = id
  · subst hid
    simp only [Function.update_self]
    exact hlinked
  · simp only [Function.update_of_ne hid]
    exact h.linked other

/-- The end of a connection: its stream gives nothing more, and its queue is empty. -/
theorem Refines.closed {s : WiredServer} {t : FrameServer} (h : Refines s t) {id : Nat}
    (server : CoordinatorServer) {stream : TcpStream} (hempty : t.queues id = [])
    (hout : stream.outgoing = (s.streams id).outgoing) :
    Refines { server := server, streams := Function.update s.streams id stream.close }
      { t with server := server } := by
  have hlink := h.linked id
  rw [hempty] at hlink
  have hupdated := h.update id server (hlink.close hout)
  rw [← hempty, Function.update_eq_self, Function.update_eq_self] at hupdated
  exact hupdated

/-- **One event** keeps the two servers together. -/
theorem refines_step (e : WiredServer.Event) {s : WiredServer} {t : FrameServer}
    (h : Refines s t) : Refines (WiredServer.step F e s) (FrameServer.step F e t) := by
  obtain ⟨server, streams⟩ := s
  obtain ⟨server', queues, answered⟩ := t
  obtain rfl : server = server' := h.server
  cases e with
  | accept id => exact ⟨rfl, h.linked⟩
  | turn id w =>
      cases hfind : server.connections.find id with
      | none =>
          simp only [WiredServer.step, FrameServer.step, hfind]
          exact h
      | some c =>
          simp only [WiredServer.step, FrameServer.step, hfind]
          have hlink : Linked (streams id) (queues id) (answered id) := h.linked id
          have hcarries := hlink.carries
          cases hvalid : (streams id).valid with
          | false =>
              rw [hvalid, if_neg Bool.false_ne_true] at hcarries
              have hreceive : FrameChannel.receiveOn (streams id) =
                  (.error (.refused "stream not valid"), streams id) := by
                unfold FrameChannel.receiveOn FrameChannel.receiveTimeout
                rw [hvalid]
                rfl
              rw [hreceive, hcarries]
              exact h.closed _ hcarries rfl
          | true =>
              rw [hvalid, if_pos rfl] at hcarries
              obtain ⟨incoming, hreceive, hleft⟩ := receiveOn_spec hvalid
              rw [hreceive]
              cases hqueue : queues id with
              | nil =>
                  rw [hqueue] at hcarries
                  obtain ⟨e, left, hfail⟩ := hcarries
                  rw [hfail]
                  exact h.closed _ hqueue rfl
              | cons f fs =>
                  rw [hqueue] at hcarries
                  obtain ⟨left, hgot, hrest⟩ := hcarries
                  rw [hgot] at hleft ⊢
                  have hnext : Carries fs (Socket.incomingBytes incoming) := by
                    rw [hleft]
                    exact hrest
                  simp only [ofByte_toByte]
                  exact h.update id _ ((hlink.read hvalid hnext).answer hvalid _)

/-- **The server on its sockets is the server on queues of frames.** Whatever leading part of the
    requests arrived on each connection, cut however, and whatever the sockets take of the
    answers: for every schedule of accepts and turns the directory and the connections are the
    same, and on each connection a leading part of the answers has gone out. -/
theorem wired_refines (F : Type) [WireDouble F] (s : WiredServer) (requests : Nat → List Frame)
    (hvalid : ∀ id, (s.streams id).valid = true)
    (hfresh : ∀ id, (s.streams id).outgoing.taken = [])
    (harrived : ∀ id, (s.streams id).bytes <+: onChannel (requests id))
    (events : List WiredServer.Event) :
    let t := after (FrameServer.step F)
      { server := s.server
        queues := fun id => delivered (s.streams id).bytes.length (requests id) } events
    (after (WiredServer.step F) s events).server = t.server ∧
      ∀ id, ((after (WiredServer.step F) s events).streams id).outgoing.taken <+:
        onChannel (t.answered id) := by
  intro t
  have hstart : Refines s
      { server := s.server
        queues := fun id => delivered (s.streams id).bytes.length (requests id) } := by
    refine ⟨rfl, fun id => ⟨?_, 0, ?_, .inr rfl⟩⟩
    · rw [if_pos (hvalid id)]
      exact carries_of_leading (harrived id)
    · rw [hfresh id]
      rfl
  have hrun : Refines (after (WiredServer.step F) s events) t :=
    after_related (fun e _ _ => refines_step e) events hstart
  refine ⟨hrun.server, fun id => ?_⟩
  obtain ⟨m, htaken, _⟩ := (hrun.linked id).gone
  rw [htaken]
  exact List.take_prefix m _

/-- A turn does to the server what at most one event does. -/
theorem server_step (e : WiredServer.Event) (s : WiredServer) :
    (WiredServer.step F e s).server = s.server ∨
      ∃ e', (WiredServer.step F e s).server = CoordinatorServer.step F e' s.server := by
  cases e with
  | accept id => exact .inr ⟨.accept id, rfl⟩
  | turn id w =>
      cases hfind : s.server.connections.find id with
      | none =>
          left
          simp only [WiredServer.step, hfind]
      | some c =>
          right
          rcases hreceive : FrameChannel.receiveOn (s.streams id) with ⟨e | ⟨kind, payload⟩, stream⟩
          · simp only [WiredServer.step, hfind, hreceive]
            exact ⟨.close id, rfl⟩
          · simp only [WiredServer.step, hfind, hreceive]
            exact ⟨.frame id w { kind := ofByte kind, payload := payload }, rfl⟩

/-- **Whatever bytes arrive** on whatever connections, frames or not: what the directory comes to
    is what a run of operations makes of it. -/
theorem wired_reached (F : Type) [WireDouble F] (persisted : Option (Option Bytes))
    (s : WiredServer) (hstart : CoordinatorServer.start persisted = some s.server)
    (events : List WiredServer.Event) :
    ∀ t ∈ visited (WiredServer.step F) s events, ∃ ops, Reached F ops t.server.dir := by
  have hrun : ∀ t ∈ visited (WiredServer.step F) s events,
      ∃ es, t.server = after (CoordinatorServer.step F) s.server es := by
    refine visited_invariant (fun e t ht => ?_) ⟨[], rfl⟩ events
    obtain ⟨es, hes⟩ := ht
    rcases server_step (F := F) e t with hsame | ⟨e', hnext⟩
    · exact ⟨es, hsame.trans hes⟩
    · refine ⟨es ++ [e'], ?_⟩
      rw [hnext, hes, after_append]
      rfl
  intro t ht
  obtain ⟨es, hes⟩ := hrun t ht
  exact CoordinatorServer.reached_server hstart es (hes ▸ after_mem_visited _ _ _)

end Wired

/-- A server whose connection 0 will receive the HELLO of worker 1, in two segments. -/
def wiredHello : WiredServer where
  streams id :=
    { sock := 4
      incoming :=
        if id = 0 then
          [⟨(onChannel [helloFrame]).take 20, by decide +kernel⟩,
            ⟨(onChannel [helloFrame]).drop 20, by decide +kernel⟩]
        else []
      outgoing := { room := [⟨100, by decide⟩] } }

theorem wired_refines_hello :
    let events := [.accept 0, .turn 0 someSurroundings, .turn 0 someSurroundings]
    let t := after (FrameServer.step Float)
      { server := wiredHello.server
        queues := fun id => delivered (wiredHello.streams id).bytes.length
          (if id = 0 then [helloFrame] else []) } events
    (after (WiredServer.step Float) wiredHello events).server = t.server ∧
      ∀ id, ((after (WiredServer.step Float) wiredHello events).streams id).outgoing.taken <+:
        onChannel (t.answered id) := by
  refine wired_refines Float wiredHello (fun id => if id = 0 then [helloFrame] else [])
    (fun _ => rfl) (fun _ => rfl) (fun id => ?_) _
  by_cases hid : id = 0
  · subst hid
    decide +kernel
  · rw [if_neg hid]
    simp [TcpStream.bytes, wiredHello, hid, Socket.incomingBytes, onChannel]

/-- Five bytes that are no frame. -/
theorem wired_reached_garbage :
    ∃ ops, Reached Float ops (after (WiredServer.step Float)
      { streams := fun _ =>
          { sock := 4, incoming := [⟨[1, 2], by decide⟩, ⟨[3, 4, 5], by decide⟩] } }
      [.accept 0, .turn 0 someSurroundings]).server.dir :=
  wired_reached Float none _ rfl _ _ (after_mem_visited _ _ _)

end CacheDirectory
