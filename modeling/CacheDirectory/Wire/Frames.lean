/-
  File:      CacheDirectory/Wire/Frames.lean
  Subject:   WHICH FRAMES SURVIVE THE WIRE.

  The decoder refuses every kind above ERROR, and REGISTER_LOCATION and REGISTER_REPLICA were
  numbered behind it; the encoder and the dispatch of the server know both.

  * `readHeader_decodes` -- the header against its reader;
  * `decodeFrame_encoded`, `decodeFrame_refused` -- what the decoder makes of a frame, whatever
    follows it;
  * `receive_sent` -- the frame channel cuts out exactly the frame and decodes it;
  * `frame_survives_iff` -- a declared kind reaches the dispatch exactly when it is neither of
    the two.
-/
import CacheDirectory.Model.Protocol

namespace CacheDirectory

open Library

namespace Protocol

/-! ## 1. The header -/

/-- The seventeen bytes in front of a payload. -/
def header (kind : MessageKind) (payload : Bytes) : Bytes :=
  open ByteWriter in
  u32 frameMagic ++ (u32 frameVersion ++ (enum kind ++ (u32 (.ofNat payload.length) ++
    (u32 (Digest.crc32 payload) ++ []))))

theorem encodeFrame_eq (kind : MessageKind) (payload : Bytes) :
    encodeFrame kind payload = header kind payload ++ payload := by
  simp [encodeFrame, header, ByteWriter.bytes]

theorem length_header (kind : MessageKind) (payload : Bytes) :
    (header kind payload).length = 17 := by
  simp [header, ByteWriter.u32, ByteWriter.enum, ByteWriter.u8, length_littleEndian]

/-- What a channel that holds a header sees of it. -/
theorem take_header (kind : MessageKind) (payload rest : Bytes) :
    (header kind payload ++ rest).take 17 = header kind payload :=
  List.take_left' (length_header kind payload)

theorem drop_header (kind : MessageKind) (payload rest : Bytes) :
    (header kind payload ++ rest).drop 17 = rest :=
  List.drop_left' (length_header kind payload)

theorem length_headed (kind : MessageKind) (payload rest : Bytes) :
    (header kind payload ++ (payload ++ rest)).length = 17 + (payload.length + rest.length) := by
  rw [List.length_append, List.length_append, length_header]

theorem maxPayload_toNat : maxPayload.toNat = 67108864 := rfl

/-- A payload within the limit has a length a 32-bit word holds. -/
theorem toNat_length {payload : Bytes} (hp : payload.length ≤ maxPayload.toNat) :
    (UInt32.ofNat payload.length).toNat = payload.length := by
  rw [maxPayload_toNat] at hp
  rw [UInt32.toNat_ofNat']
  exact Nat.mod_eq_of_lt (by omega)

/-- **The header against its reader**: the kind decides, once the length is within the limit. -/
theorem readHeader_decodes {kind : MessageKind} {payload : Bytes}
    (hp : payload.length ≤ maxPayload.toNat) :
    Decodes (¬ toByte kind > toByte MessageKind.error) readHeader (header kind payload)
      (toByte kind, .ofNat payload.length, Digest.crc32 payload) := by
  have hpass {a : UInt32} : True ↔ (a != a) = false := by simp
  have hlen : True ↔ decide (UInt32.ofNat payload.length > maxPayload) = false := by
    rw [decide_eq_false_iff_not, gt_iff_lt, UInt32.lt_iff_toNat_lt, toNat_length hp, Nat.not_lt]
    exact (iff_true_intro hp).symm
  unfold readHeader header
  refine Decodes.of_iff (.step ((ByteReader.u32_decodes _).orFail _) <| .check hpass <|
    .step ((ByteReader.u32_decodes _).orFail _) <| .check hpass <|
    .step ((ByteReader.u8_decodes _).orFail _) <| .check decide_eq_false_iff_not.symm <|
    .step ((ByteReader.u32_decodes _).orFail _) <| .check hlen <|
    .step ((ByteReader.u32_decodes _).orFail _) <| .pure rfl) ?_
  simp only [true_and, and_true]

/-! ## 2. Decoding -/

section Decoding

variable {kind : MessageKind} {payload : Bytes}

/-- **A frame is decoded to what was encoded, whatever follows it.** -/
theorem decodeFrame_encoded (hp : payload.length ≤ maxPayload.toNat)
    (hk : ¬ toByte kind > toByte MessageKind.error) (rest : Bytes) :
    decodeFrame (encodeFrame kind payload ++ rest) =
      .ok ({ kind := kind, payload := payload }, 17 + payload.length) := by
  have hread := ((readHeader_decodes hp) [] (payload ++ rest)).1 hk
  have htotal := length_headed kind payload rest
  unfold decodeFrame
  rw [encodeFrame_eq, List.append_assoc, if_neg (by omega)]
  simp only [List.nil_append, List.length_nil] at hread
  rw [hread]
  simp only [toNat_length hp, drop_header, List.take_left, bne_self_eq_false, Bool.false_eq_true,
    if_false, ofByte_toByte]
  rw [if_neg (by omega)]

/-- A kind above ERROR is refused before anything else is looked at. -/
theorem decodeFrame_refused (hp : payload.length ≤ maxPayload.toNat)
    (hk : toByte kind > toByte MessageKind.error) (rest : Bytes) :
    ∃ e, decodeFrame (encodeFrame kind payload ++ rest) = .error (.refused e) := by
  obtain ⟨e, hread⟩ := ((readHeader_decodes hp) [] (payload ++ rest)).2 (not_not_intro hk)
  have htotal := length_headed kind payload rest
  refine ⟨e, ?_⟩
  unfold decodeFrame
  rw [encodeFrame_eq, List.append_assoc, if_neg (by omega)]
  simp only [List.nil_append, List.length_nil] at hread
  rw [hread]

/-! ## 3. The channel -/

/-- The length field of a header. -/
theorem header_length_field :
    UInt32.ofNat (ofLittleEndian (((header kind payload).drop 9).take 4)) =
      .ofNat payload.length := by
  have hfront : header kind payload =
      (ByteWriter.u32 frameMagic ++ ByteWriter.u32 frameVersion ++ ByteWriter.enum kind) ++
        (ByteWriter.u32 (.ofNat payload.length) ++ ByteWriter.u32 (Digest.crc32 payload)) := by
    simp [header]
  have hnine : (ByteWriter.u32 frameMagic ++ ByteWriter.u32 frameVersion ++
      ByteWriter.enum kind).length = 9 := by
    simp [ByteWriter.u32, ByteWriter.enum, ByteWriter.u8, length_littleEndian]
  have hfour : (ByteWriter.u32 (UInt32.ofNat payload.length)).length = 4 :=
    length_littleEndian 4 _
  rw [hfront, ← hnine, List.drop_left, ← hfour, List.take_left]
  unfold ByteWriter.u32
  rw [ofLittleEndian_of_lt (UInt32.toNat_lt _), UInt32.ofNat_toNat]

/-- Within the limit the channel sends the image of the frame. -/
theorem send_eq (hp : payload.length ≤ maxPayload.toNat) :
    FrameChannel.send (toByte kind) payload = encodeFrame kind payload := by
  unfold FrameChannel.send
  rw [toNat_length hp, List.take_length, ofByte_toByte]

/-- **The channel cuts out the frame that was sent**, and gives on what the decoder makes of it. -/
theorem receive_sent (hp : payload.length ≤ maxPayload.toNat) (rest : Bytes) {frame : Frame}
    {n : Nat} (hdec : decodeFrame (encodeFrame kind payload) = .ok (frame, n)) :
    FrameChannel.receive (FrameChannel.send (toByte kind) payload ++ rest) =
      (.ok (toByte frame.kind, frame.payload), rest) := by
  have hsend : FrameChannel.send (toByte kind) payload ++ rest =
      header kind payload ++ (payload ++ rest) := by
    rw [send_eq hp, encodeFrame_eq, List.append_assoc]
  have htotal := length_headed kind payload rest
  have hmax : ¬ UInt32.ofNat payload.length > maxPayload := by
    rw [gt_iff_lt, UInt32.lt_iff_toNat_lt, toNat_length hp, Nat.not_lt]
    exact hp
  rw [hsend]
  unfold FrameChannel.receive
  rw [if_neg (by omega)]
  simp only [take_header, drop_header, header_length_field, toNat_length hp, List.take_left,
    List.drop_left, ← encodeFrame_eq]
  rw [if_neg hmax, if_neg (by rw [List.length_append]; omega), hdec]

end Decoding

/-- The declared kinds the decoder takes. -/
theorem accepted_kind_iff {kind : MessageKind} (hk : IsDeclared kind) :
    ¬ toByte kind > toByte MessageKind.error ↔
      kind ≠ .registerLocation ∧ kind ≠ .registerReplica := by
  cases kind with
  | undeclared v h => exact absurd hk (Nat.not_lt.mpr h)
  | _ => decide

/-- **A frame of a declared kind survives the wire exactly when its kind is neither
    REGISTER_LOCATION nor REGISTER_REPLICA**: then the decoder gives back kind and payload and
    consumes the frame alone, and the server receives what the client gave. -/
theorem frame_survives_iff (kind : MessageKind) (payload rest : Bytes) (hk : IsDeclared kind)
    (hp : payload.length ≤ maxPayload.toNat) :
    (decodeFrame (encodeFrame kind payload ++ rest) =
        .ok ({ kind := kind, payload := payload }, 17 + payload.length) ∧
      FrameChannel.receive (FrameChannel.send (toByte kind) payload ++ rest) =
        (.ok (toByte kind, payload), rest)) ↔
      kind ≠ .registerLocation ∧ kind ≠ .registerReplica := by
  rw [← accepted_kind_iff hk]
  constructor
  · rintro ⟨hdec, _⟩ hbad
    obtain ⟨e, he⟩ := decodeFrame_refused hp hbad rest
    rw [hdec] at he
    cases he
  · intro hgood
    have hframe := decodeFrame_encoded hp hgood []
    rw [List.append_nil] at hframe
    refine ⟨decodeFrame_encoded hp hgood rest, ?_⟩
    exact receive_sent hp rest hframe

/-- **The counterexample**: a location registration never arrives. -/
theorem registerLocation_refused :
    decodeFrame (encodeFrame .registerLocation []) = .error (.refused "invalid enum") ∧
      FrameChannel.receive (FrameChannel.send (toByte MessageKind.registerLocation) []) =
        (.error (.refused "invalid enum"), []) := by
  refine ⟨?_, ?_⟩
  all_goals decide +kernel

theorem frame_survives_hello :
    (decodeFrame (encodeFrame .hello [7] ++ [1, 2]) = .ok ({ kind := .hello, payload := [7] }, 18) ∧
      FrameChannel.receive (FrameChannel.send (toByte MessageKind.hello) [7] ++ [1, 2]) =
        (.ok (toByte MessageKind.hello, [7]), [1, 2])) ↔
      MessageKind.hello ≠ .registerLocation ∧ MessageKind.hello ≠ .registerReplica :=
  frame_survives_iff .hello [7] [1, 2] (by decide) (by decide)

end Protocol

end CacheDirectory
