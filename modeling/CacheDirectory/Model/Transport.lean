/-
  File:      CacheDirectory/Model/Transport.lean
  Subject:   SOCKETS AND THE FRAME CHANNEL ON THEM (transport.hpp, transport.cpp).

  A socket is what the calls on it see. `recv` finds the bytes of the other side cut into
  segments, and fails behind the last one: the connection was closed or is broken. `send` takes
  some of the bytes it is given, until it fails for good. The two loops around them and the
  channel are the source's. Opening and accepting sockets is left out.
-/
import CacheDirectory.Library.Transfers
import CacheDirectory.Model.Server
import Mathlib.Logic.Function.Basic

namespace CacheDirectory

open Library Protocol

/-! ## 1. The two calls -/

namespace Socket

/-- `recv` of at most `n` bytes; none is `r <= 0`. -/
def recv (n : Nat) (incoming : List (Piece UInt8)) : Option (Piece UInt8 × List (Piece UInt8)) :=
  match incoming with
  | [] => none
  | p :: ps =>
      if hn : n = 0 then none
      else if hlong : n < p.1.length then
        some (⟨p.1.take n, by simp [hn, p.2]⟩, ⟨p.1.drop n, by simpa using hlong⟩ :: ps)
      else some (p, ps)

/-- The bytes `recv` will find. -/
def incomingBytes (incoming : List (Piece UInt8)) : Bytes := incoming.flatMap Subtype.val

def receiving : Source UInt8 (List (Piece UInt8)) where
  ask := recv
  held := incomingBytes
  held_none := by
    intro n s hn h
    cases s with
    | nil => rfl
    | cons p ps =>
        simp only [recv, dif_neg (Nat.ne_of_gt hn)] at h
        split at h
        all_goals cases h
  held_some := by
    intro n s p t h
    cases s with
    | nil => cases h
    | cons q qs =>
        by_cases hn : n = 0
        · simp only [recv, dif_pos hn] at h
          cases h
        · by_cases hlong : n < q.1.length
          · simp only [recv, dif_neg hn, dif_pos hlong, Option.some.injEq, Prod.mk.injEq] at h
            obtain ⟨rfl, rfl⟩ := h
            refine ⟨List.length_take_le _ _, ?_⟩
            simp only [incomingBytes, List.flatMap_cons]
            rw [← List.append_assoc, List.take_append_drop]
          · simp only [recv, dif_neg hn, dif_neg hlong, Option.some.injEq, Prod.mk.injEq] at h
            obtain ⟨rfl, rfl⟩ := h
            exact ⟨Nat.le_of_not_lt hlong, rfl⟩

/-- The sending side: how much each call will take, until they fail, and what was taken. -/
structure Outgoing where
  room : List Amount := []
  taken : Bytes := []

/-- `send` of the bytes; none is `r <= 0`. -/
def send (bytes : Bytes) (out : Outgoing) : Option (Amount × Outgoing) :=
  match out.room with
  | [] => none
  | k :: ks =>
      if hempty : bytes = [] then none
      else
        some (⟨min k.1 bytes.length, Nat.lt_min.mpr ⟨k.2, List.length_pos_of_ne_nil hempty⟩⟩,
          { room := ks, taken := out.taken ++ bytes.take (min k.1 bytes.length) })

def sending : Sink UInt8 Outgoing where
  offer := send
  taken := Outgoing.taken
  taken_some := by
    intro l t k u h
    obtain ⟨room, taken⟩ := t
    cases room with
    | nil => cases h
    | cons k' ks =>
        by_cases hempty : l = []
        · simp only [send, dif_pos hempty] at h
          cases h
        · simp only [send, dif_neg hempty, Option.some.injEq, Prod.mk.injEq] at h
          obtain ⟨rfl, rfl⟩ := h
          exact ⟨Nat.min_le_right _ _, rfl⟩

end Socket

/-! ## 2. The stream -/

structure TcpStream where
  sock : UInt64 := ~~~0
  incoming : List (Piece UInt8) := []
  outgoing : Socket.Outgoing := {}

namespace TcpStream

def valid (s : TcpStream) : Bool := s.sock != ~~~0

def close (s : TcpStream) : TcpStream := if s.sock != ~~~0 then { s with sock := ~~~0 } else s

def blockingReadExact (n : Nat) (s : TcpStream) : Option Bytes × TcpStream :=
  let (read, incoming) := Socket.receiving.collect n [] s.incoming
  (read, { s with incoming := incoming })

def blockingWriteAll (bytes : Bytes) (s : TcpStream) : Bool × TcpStream :=
  let (ok, outgoing) := Socket.sending.push bytes 0 s.outgoing
  (ok, { s with outgoing := outgoing })

end TcpStream

/-! ## 3. The frame channel -/

namespace Protocol.FrameChannel

/-- `send`: the error is the text left in `err`. -/
def sendOn (kind : UInt8) (payload : Bytes) (s : TcpStream) : Except String Unit × TcpStream :=
  if !s.valid then (.error "stream not valid", s)
  else
    let frame := encodeFrame (ofByte kind) (payload.take (UInt32.ofNat payload.length).toNat)
    let (ok, s) := s.blockingWriteAll frame
    if !ok then (.error "send failed", s) else (.ok (), s)

/-- `receive_timeout`, with the result of `select` when there is a timeout. -/
def receiveTimeout (selected : Option Int) (s : TcpStream) :
    Except (ReadFault String) (UInt8 × Bytes) × TcpStream :=
  if !s.valid then (.error (.refused "stream not valid"), s)
  else if selected = some 0 then (.error (.refused "timeout"), s)
  else if selected.any (· < 0) then (.error (.refused "select failed"), s)
  else
    match s.blockingReadExact 17 with
    | (none, s) => (.error (.refused "eof/connection closed"), s)
    | (some hdr, s) =>
        let len := UInt32.ofNat (ofLittleEndian ((hdr.drop 9).take 4))
        if len > maxPayload then (.error (.refused "oversized payload"), s)
        else
          match s.blockingReadExact len.toNat with
          | (none, s) => (.error (.refused "eof/connection closed (payload)"), s)
          | (some payload, s) =>
              match decodeFrame (hdr ++ payload) with
              | .error e => (.error e, s)
              | .ok (frame, _) => (.ok (toByte frame.kind, frame.payload), s)

def receiveOn (s : TcpStream) : Except (ReadFault String) (UInt8 × Bytes) × TcpStream :=
  receiveTimeout none s

end Protocol.FrameChannel

/-! ## 4. The server on its sockets -/

/-- The server with the stream of each connection. -/
structure WiredServer where
  server : CoordinatorServer := {}
  streams : Nat → TcpStream := fun _ => {}

namespace WiredServer

/-- What can happen: a connection is accepted, or its thread goes through its loop once. -/
inductive Event where
  | accept (id : Nat)
  | turn (id : Nat) (w : CoordinatorServer.Surroundings)

/-- `ch.send`, whatever comes of it. -/
def sendFrame (s : TcpStream) (f : Frame) : TcpStream :=
  (FrameChannel.sendOn (toByte f.kind) f.payload s).2

/-- One event. A turn receives a frame and sends the answers, or ends the thread. -/
def step (F : Type) [WireDouble F] (e : Event) (s : WiredServer) : WiredServer :=
  match e with
  | .accept id => { s with server := CoordinatorServer.step F (.accept id) s.server }
  | .turn id w =>
      match s.server.connections.find id with
      | none => s
      | some c =>
          match FrameChannel.receiveOn (s.streams id) with
          | (.error _, stream) =>
              { server := CoordinatorServer.step F (.close id) s.server
                streams := Function.update s.streams id stream.close }
          | (.ok (kind, payload), stream) =>
              let frame : Frame := { kind := ofByte kind, payload := payload }
              let answers := (CoordinatorServer.handle F w frame c.handler s.server.dir).1
              { server := CoordinatorServer.step F (.frame id w frame) s.server
                streams := Function.update s.streams id (answers.foldl sendFrame stream) }

end WiredServer

end CacheDirectory
