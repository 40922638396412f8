/-
  File:      CacheDirectory/Wire/Streams.lean
  Subject:   STREAMS OF FRAMES DELIMIT THEMSELVES.

  The channel reads the length of a frame at offset 9 and cuts; the decoder reads the header field
  by field. On every byte string the two agree: what the decoder takes starts with the image of
  the frame it gives, no part of an image is taken, and the channel consumes that image alone.

  * `readHeader_spells` -- the header the reader gives is the one it read;
  * `decodeFrame_sound`, `decodeFrame_prefix` -- the image, and its strict prefixes;
  * `receives_sent` -- a stream of frames, call by call;
  * `streams_self_delimiting` -- both directions.
-/
import CacheDirectory.Wire.Frames

namespace CacheDirectory

open Library ByteReader

namespace Protocol

/-! ## 1. The decoder -/

/-- What a header that passes says. -/
structure HeaderOf (kind : UInt8) (len crc : UInt32) (bs : Bytes) : Prop where
  allowed : ¬ kind > toByte MessageKind.error
  bounded : ¬ len > maxPayload
  image : bs = ByteWriter.u32 frameMagic ++ (ByteWriter.u32 frameVersion ++
    (ByteWriter.u8 kind ++ (ByteWriter.u32 len ++ (ByteWriter.u32 crc ++ []))))

/-- **The header is read from its own image.** -/
theorem readHeader_spells : Spells readHeader fun h bs => HeaderOf h.1 h.2.1 h.2.2 bs := by
  unfold readHeader
  refine .seq (u32_spells.orFail _) fun magic bs₁ h₁ => .check fun hmagic => ?_
  refine .seq (u32_spells.orFail _) fun ver bs₂ h₂ => .check fun hver => ?_
  refine .seq (u8_spells.orFail _) fun kind bs₃ h₃ => .check fun hkind => ?_
  refine .seq (u32_spells.orFail _) fun len bs₄ h₄ => .check fun hlen => ?_
  refine .seq (u32_spells.orFail _) fun crc bs₅ h₅ => .pure ?_
  have hmagic' : magic = frameMagic := bne_eq_false_iff_eq.mp hmagic
  have hver' : ver = frameVersion := bne_eq_false_iff_eq.mp hver
  subst h₁ h₂ h₃ h₄ h₅ hmagic' hver'
  exact ⟨of_decide_eq_false hkind, of_decide_eq_false hlen, rfl⟩

theorem length_headerOf {kind : UInt8} {len crc : UInt32} {bs : Bytes}
    (h : HeaderOf kind len crc bs) : bs.length = 17 := by
  rw [h.image]
  simp [ByteWriter.u32, ByteWriter.u8, length_littleEndian]

/-- The image of a header that passes, with the payload it announces. -/
theorem encodeFrame_of_header {kind : UInt8} {len crc : UInt32} {bs p : Bytes}
    (h : HeaderOf kind len crc bs) (hlen : p.length = len.toNat) (hcrc : Digest.crc32 p = crc) :
    encodeFrame (ofByte kind) p = bs ++ p := by
  rw [encodeFrame_eq, h.image]
  unfold header ByteWriter.enum
  rw [toByte_ofByte, hlen, UInt32.ofNat_toNat, hcrc]

/-- **What the decoder takes starts with the image of the frame it gives**, and is of a kind and a
    length that are allowed. -/
theorem decodeFrame_sound {bytes : Bytes} {frame : Frame} {total : Nat}
    (h : decodeFrame bytes = .ok (frame, total)) :
    ∃ rest, bytes = encodeFrame frame.kind frame.payload ++ rest ∧
      total = 17 + frame.payload.length ∧ ¬ toByte frame.kind > toByte MessageKind.error ∧
      frame.payload.length ≤ maxPayload.toNat := by
  unfold decodeFrame at h
  split at h
  · cases h
  · cases hread : readHeader.raw ⟨bytes, 0⟩ with
    | error e =>
        rw [hread] at h
        cases h
    | ok x =>
        obtain ⟨⟨kind, len, crc⟩, c⟩ := x
        rw [hread] at h
        simp only at h
        split at h
        · cases h
        · next hlong =>
            split at h
            · cases h
            · next hcrc =>
                cases h
                obtain ⟨bs, hhead, hcells⟩ := readHeader_spells _ _ _ (Nat.zero_le _) hread
                have hbytes : bytes = bs ++ bytes.drop c.pos := hcells
                have hbehind : bytes.drop 17 = bytes.drop c.pos := by
                  conv_lhs => rw [hbytes]
                  exact List.drop_left' (length_headerOf hhead)
                have hlen : ((bytes.drop 17).take len.toNat).length = len.toNat := by
                  rw [List.length_take, List.length_drop]
                  omega
                have hsum : Digest.crc32 ((bytes.drop 17).take len.toNat) = crc :=
                  bne_eq_false_iff_eq.mp (Bool.eq_false_of_not_eq_true hcrc)
                refine ⟨(bytes.drop 17).drop len.toNat, ?_, by rw [hlen], ?_, ?_⟩
                · rw [encodeFrame_of_header hhead hlen hsum, List.append_assoc,
                    List.take_append_drop, hbehind]
                  exact hbytes
                · rw [toByte_ofByte]
                  exact hhead.allowed
                · rw [hlen]
                  exact Nat.not_lt.mp hhead.bounded

/-- The decoder reads inside what it is given. -/
theorem decodeFrame_inside (bytes : Bytes) : decodeFrame bytes ≠ .error .outside := by
  intro h
  unfold decodeFrame at h
  split at h
  · cases h
  · cases hread : readHeader.raw ⟨bytes, 0⟩ with
    | error e =>
        rw [hread] at h
        cases h
        exact readHeader.bounded.inside ⟨bytes, 0⟩ (Nat.zero_le _) hread
    | ok x =>
        obtain ⟨⟨kind, len, crc⟩, c⟩ := x
        rw [hread] at h
        simp only at h
        split at h
        · cases h
        · split at h
          · cases h
          · cases h

/-- **No strict prefix of an image is taken**: the frame it gave would be the one the whole gives,
    and would reach further than the prefix. -/
theorem decodeFrame_prefix {bytes : Bytes} {frame : Frame} {total : Nat}
    (h : decodeFrame bytes = .ok (frame, total)) {i : Nat} (hi : i < total) :
    ∃ e, decodeFrame (bytes.take i) = .error (.refused e) := by
  cases hcut : decodeFrame (bytes.take i) with
  | error fault =>
      cases fault with
      | refused e => exact ⟨e, rfl⟩
      | outside => exact absurd hcut (decodeFrame_inside _)
  | ok x =>
      obtain ⟨frame', total'⟩ := x
      obtain ⟨rest, hsplit, htotal, hkind, hbound⟩ := decodeFrame_sound hcut
      have hwhole : bytes = encodeFrame frame'.kind frame'.payload ++ (rest ++ bytes.drop i) := by
        rw [← List.append_assoc, ← hsplit, List.take_append_drop]
      have hdec := decodeFrame_encoded hbound hkind (rest ++ bytes.drop i)
      rw [← hwhole, h] at hdec
      cases hdec
      have hlen := congrArg List.length hsplit
      rw [List.length_take, List.length_append, encodeFrame_eq, List.length_append,
        length_header] at hlen
      omega

/-! ## 2. The channel -/

/-- The channel cuts an image out of what is under way. -/
theorem receive_encoded {kind : MessageKind} {payload : Bytes}
    (hk : ¬ toByte kind > toByte MessageKind.error) (hp : payload.length ≤ maxPayload.toNat)
    (rest : Bytes) :
    FrameChannel.receive (encodeFrame kind payload ++ rest) =
      (.ok (toByte kind, payload), rest) := by
  have hdec := decodeFrame_encoded hp hk []
  rw [List.append_nil] at hdec
  have hreceive := receive_sent hp rest hdec
  rwa [send_eq hp] at hreceive

/-- `receive` called again and again, at most `n` times, until it fails: what it delivers and what
    is left. -/
def FrameChannel.receives : Nat → Bytes → List (UInt8 × Bytes) × Bytes
  | 0, incoming => ([], incoming)
  | n + 1, incoming =>
      match FrameChannel.receive incoming with
      | (.error _, behind) => ([], behind)
      | (.ok message, behind) =>
          (message :: (FrameChannel.receives n behind).1, (FrameChannel.receives n behind).2)

/-- The images of the frames, one behind the other. -/
def streamOf (frames : List Frame) : Bytes :=
  frames.flatMap fun f => encodeFrame f.kind f.payload

/-- A frame the wire carries: of a kind up to ERROR, with a payload within the limit. -/
structure Frame.Carried (f : Frame) : Prop where
  kind : ¬ toByte f.kind > toByte MessageKind.error
  payload : f.payload.length ≤ maxPayload.toNat

/-- **A stream is delivered frame by frame**, and nothing is left of it. -/
theorem receives_sent : ∀ (frames : List Frame) (n : Nat), (∀ f ∈ frames, f.Carried) →
    frames.length ≤ n →
      FrameChannel.receives n (streamOf frames) =
        (frames.map fun f => (toByte f.kind, f.payload), [])
  | [], 0, _, _ => rfl
  | [], _ + 1, _, _ => rfl
  | _ :: _, 0, _, hn => absurd hn (Nat.not_succ_le_zero _)
  | f :: fs, n + 1, hcarried, hn => by
      obtain ⟨hf, hfs⟩ := List.forall_mem_cons.mp hcarried
      have hreceive := receive_encoded hf.kind hf.payload (streamOf fs)
      have hrest := receives_sent fs n hfs (Nat.le_of_succ_le_succ hn)
      have hstream : streamOf (f :: fs) = encodeFrame f.kind f.payload ++ streamOf fs := rfl
      unfold FrameChannel.receives
      rw [hstream, hreceive]
      dsimp only
      rw [hrest]
      rfl

/-! ## 3. Both directions -/

/-- What a call of the decoder that succeeds says of its input: it starts with the image of the
    frame, no strict prefix of which is taken, and which the channel consumes, whatever follows. -/
structure Delimited (bytes : Bytes) (frame : Frame) (consumed : Nat) : Prop where
  image : bytes.take consumed = encodeFrame frame.kind frame.payload
  length : (encodeFrame frame.kind frame.payload).length = consumed
  prefixes : ∀ i < consumed, ∀ (out : Frame) (c : Nat),
    ∃ e, decodeFrameInto (bytes.take i) out c = (.error (.refused e), out, c)
  received : ∀ rest, FrameChannel.receive (bytes ++ rest) =
    (.ok (toByte frame.kind, frame.payload), (bytes ++ rest).drop consumed)

theorem delimited_of_decoded {bytes : Bytes} {frame : Frame} {consumed : Nat}
    (h : decodeFrame bytes = .ok (frame, consumed)) : Delimited bytes frame consumed := by
  obtain ⟨behind, hbytes, htotal, hkind, hbound⟩ := decodeFrame_sound h
  have hlen : (encodeFrame frame.kind frame.payload).length = consumed := by
    rw [encodeFrame_eq, List.length_append, length_header, htotal]
  refine ⟨?_, hlen, fun i hi out c => ?_, fun rest => ?_⟩
  · rw [hbytes]
    exact List.take_left' hlen
  · obtain ⟨e, he⟩ := decodeFrame_prefix h hi
    refine ⟨e, ?_⟩
    rw [decodeFrameInto_eq, he]
  · rw [hbytes, List.append_assoc, receive_encoded hkind hbound, List.drop_left' hlen]

/-- **Frame streams are self-delimiting and sound**: a stream of frames the wire carries is
    delivered frame by frame and consumed; and whatever the decoder takes, out of whatever bytes,
    is delimited. A failure writes neither out-parameter. -/
theorem streams_self_delimiting :
    (∀ frames : List Frame,
      (∀ f ∈ frames, (toByte f.kind).toNat ≤ 16 ∧ f.payload.length ≤ maxPayload.toNat) →
        ∀ n, frames.length ≤ n →
          FrameChannel.receives n (frames.flatMap fun f => encodeFrame f.kind f.payload) =
            (frames.map fun f => (toByte f.kind, f.payload), [])) ∧
      ∀ (bytes : Bytes) (out frame : Frame) (c consumed : Nat),
        (decodeFrameInto bytes out c = (.ok (), frame, consumed) →
          Delimited bytes frame consumed) ∧
        ∀ e, decodeFrameInto bytes out c = (.error e, frame, consumed) →
          frame = out ∧ consumed = c := by
  constructor
  · intro frames hframes n hn
    refine receives_sent frames n (fun f hf => ?_) hn
    obtain ⟨hkind, hpayload⟩ := hframes f hf
    refine ⟨fun hbad => ?_, hpayload⟩
    have hlt : (toByte MessageKind.error).toNat < (toByte f.kind).toNat :=
      UInt8.lt_iff_toNat_lt.mp hbad
    have herror : (toByte MessageKind.error).toNat = 16 := by decide
    omega
  · intro bytes out frame c consumed
    rw [decodeFrameInto_eq]
    cases hdec : decodeFrame bytes with
    | error e =>
        refine ⟨fun h => (by cases h), fun e' h => ?_⟩
        cases h
        exact ⟨rfl, rfl⟩
    | ok x =>
        refine ⟨fun h => ?_, fun e' h => (by cases h)⟩
        cases h
        exact delimited_of_decoded hdec

theorem streams_self_delimiting_two :
    FrameChannel.receives 2 (encodeFrame .hello [7] ++ encodeFrame .error []) =
      ([(toByte MessageKind.hello, [7]), (toByte MessageKind.error, [])], []) := by
  have htwo := streams_self_delimiting.1
    [{ kind := .hello, payload := [7] }, { kind := .error, payload := [] }] (by decide) 2
    (Nat.le_refl 2)
  simpa using htwo

end Protocol

end CacheDirectory
