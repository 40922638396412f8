/-
  File:      CacheDirectory/Model/Protocol.lean
  Subject:   FRAMES (protocol.cpp, the frame channel of transport.cpp).

  A frame is magic, version, kind, length, checksum and payload. The encoder casts whatever kind
  it is given; the decoder compares the byte it reads with the value of ERROR. A socket is the
  list of the bytes still to arrive: reading more than is left is the end of the connection.
-/
import CacheDirectory.Model.Serde

namespace CacheDirectory

open Library

namespace Protocol

def frameMagic : UInt32 := 0x46444331
def frameVersion : UInt32 := 1
def maxPayload : UInt32 := 64 * 1024 * 1024

structure Frame where
  kind : MessageKind := .error
  payload : Bytes := []
  deriving DecidableEq

/-! ## 1. Encoding and decoding -/

def encodeFrame (kind : MessageKind) (payload : Bytes) : Bytes :=
  open ByteWriter in
  [u32 frameMagic, u32 frameVersion, enum kind, u32 (.ofNat payload.length),
    u32 (Digest.crc32 payload), bytes payload].flatten

/-- The header: kind, length and checksum. -/
def readHeader : Parser UInt8 String (UInt8 × UInt32 × UInt32) := do
  let magic ← ByteReader.u32.orFail "truncation: magic"
  Parser.refuseIf (magic != frameMagic) "bad magic"
  let ver ← ByteReader.u32.orFail "truncation: version"
  Parser.refuseIf (ver != frameVersion) "unsupported version"
  let kind ← ByteReader.u8.orFail "truncation: kind"
  Parser.refuseIf (kind > toByte MessageKind.error) "invalid enum"
  let len ← ByteReader.u32.orFail "truncation: length"
  Parser.refuseIf (len > maxPayload) "oversized payload"
  let crc ← ByteReader.u32.orFail "truncation: crc"
  pure (kind, len, crc)

/-- `decode_frame`: the frame and `consumed`. -/
def decodeFrame (bytes : Bytes) : Except (ReadFault String) (Frame × Nat) :=
  if bytes.length < 17 then .error (.refused "truncation: frame header incomplete")
  else
    match readHeader.raw ⟨bytes, 0⟩ with
    | .error e => .error e
    | .ok ((kind, len, crc), _) =>
        let total := 17 + len.toNat
        if bytes.length < total then .error (.refused "truncation: payload")
        else
          let p := (bytes.drop 17).take len.toNat
          if Digest.crc32 p != crc then .error (.refused "checksum mismatch")
          else .ok ({ kind := ofByte kind, payload := p }, total)

/-- `decode_frame` with its two out-parameters: what is in them behind the call. -/
def decodeFrameInto (bytes : Bytes) (out : Frame) (consumed : Nat) :
    Except (ReadFault String) Unit × Frame × Nat :=
  if bytes.length < 17 then
    (.error (.refused "truncation: frame header incomplete"), out, consumed)
  else
    match readHeader.raw ⟨bytes, 0⟩ with
    | .error e => (.error e, out, consumed)
    | .ok ((kind, len, crc), _) =>
        let total := 17 + len.toNat
        if bytes.length < total then (.error (.refused "truncation: payload"), out, consumed)
        else
          let p := (bytes.drop 17).take len.toNat
          if Digest.crc32 p != crc then (.error (.refused "checksum mismatch"), out, consumed)
          else (.ok (), { out with kind := ofByte kind, payload := p }, total)

/-- The out-parameters are written on success only. -/
theorem decodeFrameInto_eq (bytes : Bytes) (out : Frame) (consumed : Nat) :
    decodeFrameInto bytes out consumed =
      match decodeFrame bytes with
      | .ok (frame, total) => (.ok (), frame, total)
      | .error e => (.error e, out, consumed) := by
  unfold decodeFrameInto decodeFrame
  split
  · rfl
  · cases readHeader.raw ⟨bytes, 0⟩ with
    | error e => rfl
    | ok x =>
        obtain ⟨⟨kind, len, crc⟩, c⟩ := x
        dsimp only
        split
        · rfl
        · split
          · rfl
          · rfl

/-! ## 2. The frame channel -/

namespace FrameChannel

/-- The bytes `send` writes; the length goes through a `uint32_t`. -/
def send (kind : UInt8) (payload : Bytes) : Bytes :=
  encodeFrame (ofByte kind) (payload.take (UInt32.ofNat payload.length).toNat)

/-- `receive` on the bytes still to arrive, with what is left behind it. -/
def receive (incoming : Bytes) : Except (ReadFault String) (UInt8 × Bytes) × Bytes :=
  if incoming.length < 17 then (.error (.refused "eof/connection closed"), [])
  else
    let hdr := incoming.take 17
    let behind := incoming.drop 17
    let len := UInt32.ofNat (ofLittleEndian ((hdr.drop 9).take 4))
    if len > maxPayload then (.error (.refused "oversized payload"), behind)
    else if behind.length < len.toNat then
      (.error (.refused "eof/connection closed (payload)"), [])
    else
      let payload := behind.take len.toNat
      match decodeFrame (hdr ++ payload) with
      | .error e => (.error e, behind.drop len.toNat)
      | .ok (frame, _) => (.ok (toByte frame.kind, frame.payload), behind.drop len.toNat)

end FrameChannel

end Protocol

end CacheDirectory
