/-
  File:      CacheDirectory/Wire/Bursts.lean
  Subject:   DAMAGE WITHIN 32 CONSECUTIVE BITS OF A PAYLOAD.

  `crc32` divides the bit string of its bytes, least significant bit of a byte first, a byte at a
  time from a table. The table is that of the bit-serial division, so what the division tells
  apart the checksum does.

  * `crcByte_eq` -- the table step is eight steps of the division;
  * `foldl_crcByte` -- so the loop over the bytes divides the bits of the bytes;
  * `burst_detected` -- a burst of up to 32 bits changes the checksum, and the frame is refused.
-/
import CacheDirectory.Library.CyclicRedundancy
import CacheDirectory.Wire.Frames

namespace CacheDirectory

open Library

/-! ## 1. Bits -/

/-- The bits of a byte, the least significant first. -/
def byteBits (b : UInt8) : List Bool := (List.range 8).map b.toBitVec.getLsbD

/-- The bits of a byte string, least significant first within each byte. -/
def payloadBits (p : Bytes) : List Bool := p.flatMap byteBits

theorem length_payloadBits (p : Bytes) : (payloadBits p).length = 8 * p.length := by
  induction p with
  | nil => rfl
  | cons b p ih =>
      rw [payloadBits, List.flatMap_cons, List.length_append, ← payloadBits, ih]
      simp only [byteBits, List.length_map, List.length_range, List.length_cons]
      omega

theorem bitWord_byteBits (b : UInt8) : bitWord 32 (byteBits b) = b.toBitVec.setWidth 32 := by
  apply BitVec.eq_of_getLsbD_eq
  intro i hi
  rw [getLsbD_bitWord, BitVec.getLsbD_setWidth, byteBits]
  by_cases hbyte : i < 8
  · rw [List.getD_eq_getElem _ _ (by simpa using hbyte), List.getElem_map, List.getElem_range]
  · rw [List.getD_eq_default _ _ (by simpa using hbyte), BitVec.getLsbD_of_ge _ _ (by omega)]

/-! ## 2. The table and the division -/

namespace Digest

/-- The polynomial of `crc32`, its lowest power at the top. -/
def crcPoly : BitVec 32 := 0xEDB88320

theorem crcBit_toBitVec (c : UInt32) : (crcBit c).toBitVec = crcStep crcPoly c.toBitVec := by
  have hlow : (c &&& 1 != 0) = c.toBitVec.getLsbD 0 := by
    have hone : (c &&& 1).toNat = c.toNat % 2 := Nat.and_one_is_mod c.toNat
    have hbit : c.toBitVec.getLsbD 0 = decide (c.toNat % 2 = 1) := Nat.testBit_zero c.toNat
    rw [Bool.eq_iff_iff, bne_iff_ne, ne_eq, ← UInt32.toNat_inj, hone, hbit, decide_eq_true_iff,
      UInt32.toNat_zero]
    omega
  unfold crcBit crcStep
  rw [hlow]
  split
  · rfl
  · rfl

theorem crcBits_toBitVec (n : Nat) (c : UInt32) :
    (crcBit^[n] c).toBitVec = (crcStep crcPoly)^[n] c.toBitVec := by
  induction n generalizing c with
  | zero => rfl
  | succ n ih => rw [Function.iterate_succ_apply, Function.iterate_succ_apply, ih, crcBit_toBitVec]

/-- The low byte of a word. -/
theorem toBitVec_and_byte (x : UInt32) :
    (x &&& 0xFF).toBitVec = (x.toBitVec.setWidth 8).setWidth 32 := by
  apply BitVec.eq_of_toNat_eq
  have hand : (x &&& 0xFF).toBitVec.toNat = x.toNat % 2 ^ 8 :=
    Nat.and_two_pow_sub_one_eq_mod x.toNat 8
  have hlt : x.toNat % 2 ^ 8 < 2 ^ 32 := by omega
  rw [hand, BitVec.toNat_setWidth, BitVec.toNat_setWidth]
  exact (Nat.mod_eq_of_lt hlt).symm

/-- **The table step is the division of eight bits.** -/
theorem crcByte_eq (c : UInt32) (b : UInt8) :
    (crcByte c b).toBitVec = crcDivide crcPoly c.toBitVec (byteBits b) := by
  have hdown : (c >>> 8).toBitVec = c.toBitVec >>> 8 := rfl
  have hbyte : (c ^^^ b.toUInt32).toBitVec = c.toBitVec ^^^ b.toBitVec.setWidth 32 := rfl
  have htop : ∀ i, 32 - 8 ≤ i → (c.toBitVec >>> 8).getLsbD i = false := by
    intro i hi
    rw [BitVec.getLsbD_ushiftRight]
    exact BitVec.getLsbD_of_ge _ _ (by omega)
  -- the word with the byte put in, cut into its low byte and the rest
  have hsplit : ((c ^^^ b.toUInt32) &&& 0xFF).toBitVec ^^^ ((c.toBitVec >>> 8) <<< 8) =
      c.toBitVec ^^^ b.toBitVec.setWidth 32 := by
    rw [toBitVec_and_byte, hbyte]
    apply BitVec.eq_of_getLsbD_eq
    intro i hi
    simp only [BitVec.getLsbD_xor, BitVec.getLsbD_setWidth, BitVec.getLsbD_shiftLeft,
      BitVec.getLsbD_ushiftRight, hi, decide_true, Bool.true_and]
    by_cases hlow : i < 8
    · simp [hlow]
    · have hback : 8 + (i - 8) = i := by omega
      simp [hlow, hback, BitVec.getLsbD_of_ge b.toBitVec i (by omega)]
  unfold crcByte crcTable
  rw [UInt32.toBitVec_xor, crcBits_toBitVec, hdown, ← crcStep_split crcPoly _ _ 8 htop, hsplit,
    crcDivide_eq crcPoly (byteBits b) _ (by simp [byteBits]), bitWord_byteBits]
  rfl

/-- The loop over the bytes divides their bits. -/
theorem foldl_crcByte (bytes : List UInt8) (c : UInt32) :
    (bytes.foldl crcByte c).toBitVec = crcDivide crcPoly c.toBitVec (payloadBits bytes) := by
  induction bytes generalizing c with
  | nil => rfl
  | cons b bytes ih =>
      rw [List.foldl_cons, ih, crcByte_eq, ← crcDivide_append]
      rfl

theorem toBitVec_crc32 (bytes : List UInt8) :
    (crc32 bytes).toBitVec =
      crcDivide crcPoly 0xFFFFFFFF (payloadBits bytes) ^^^ 0xFFFFFFFF := by
  unfold crc32
  rw [UInt32.toBitVec_xor, foldl_crcByte]
  rfl

end Digest

/-! ## 3. Bursts -/

/-- The two differ, and only in the 32 bits from `k` on. -/
structure Burst (k : Nat) (p p' : Bytes) : Prop where
  length : p'.length = p.length
  window : ∀ i : Nat, (payloadBits p')[i]? ≠ (payloadBits p)[i]? → k ≤ i ∧ i < k + 32
  differ : ∃ i : Nat, (payloadBits p')[i]? ≠ (payloadBits p)[i]?

/-- Two strings of bits with a burst between them are cut into front, window and tail. -/
theorem Burst.split {k : Nat} {p p' : Bytes} (h : Burst k p p') :
    ∃ front burst burst' tail, payloadBits p = front ++ (burst ++ tail) ∧
      payloadBits p' = front ++ (burst' ++ tail) ∧ burst.length = burst'.length ∧
      burst.length ≤ 32 ∧ burst ≠ burst' := by
  have hlen : (payloadBits p').length = (payloadBits p).length := by
    rw [length_payloadBits, length_payloadBits, h.length]
  have hsame : ∀ i : Nat, ¬ (k ≤ i ∧ i < k + 32) → (payloadBits p')[i]? = (payloadBits p)[i]? :=
    fun i hi => not_not.mp fun hne => hi (h.window i hne)
  have hcut (bits : List Bool) :
      bits = bits.take k ++ ((bits.drop k).take 32 ++ bits.drop (k + 32)) := by
    rw [← List.drop_drop, List.take_append_drop, List.take_append_drop]
  have hfront : (payloadBits p').take k = (payloadBits p).take k := by
    apply List.ext_getElem?
    intro i
    rw [List.getElem?_take, List.getElem?_take]
    split
    · exact hsame i (by omega)
    · rfl
  have htail : (payloadBits p').drop (k + 32) = (payloadBits p).drop (k + 32) := by
    apply List.ext_getElem?
    intro i
    rw [List.getElem?_drop, List.getElem?_drop]
    exact hsame _ (by omega)
  refine ⟨_, _, ((payloadBits p').drop k).take 32, _, hcut (payloadBits p), ?_, ?_,
    List.length_take_le _ _, ?_⟩
  · rw [← hfront, ← htail]
    exact hcut (payloadBits p')
  · simp only [List.length_take, List.length_drop, hlen]
  · intro hburst
    obtain ⟨i, hi⟩ := h.differ
    refine hi ?_
    rw [hcut (payloadBits p'), hfront, htail, ← hburst, ← hcut (payloadBits p)]

/-- **A burst changes the checksum.** -/
theorem crc32_ne_of_burst {k : Nat} {p p' : Bytes} (h : Burst k p p') :
    Digest.crc32 p' ≠ Digest.crc32 p := by
  obtain ⟨front, burst, burst', tail, hp, hp', hlen, hw, hne⟩ := h.split
  intro hcrc
  have hbits := congrArg UInt32.toBitVec hcrc
  rw [Digest.toBitVec_crc32, Digest.toBitVec_crc32, BitVec.xor_left_inj, hp, hp'] at hbits
  exact crcDivide_burst (by decide) hlen hw hne 0xFFFFFFFF hbits.symm

namespace Protocol

/-- Behind a header of another checksum a payload is refused. -/
theorem decodeFrame_mismatch {kind : MessageKind} {p p' : Bytes}
    (hp : p.length ≤ maxPayload.toNat) (hlen : p'.length = p.length)
    (hcrc : Digest.crc32 p' ≠ Digest.crc32 p) (rest : Bytes) :
    ∃ e, decodeFrame (header kind p ++ (p' ++ rest)) = .error (.refused e) := by
  have htotal : (header kind p ++ (p' ++ rest)).length = 17 + (p.length + rest.length) := by
    rw [List.length_append, List.length_append, length_header, hlen]
  have hdec := (@readHeader_decodes kind _ hp) [] (p' ++ rest)
  simp only [List.nil_append, List.length_nil] at hdec
  unfold decodeFrame
  rw [if_neg (by omega)]
  by_cases hk : toByte kind > toByte MessageKind.error
  · obtain ⟨e, he⟩ := hdec.2 (not_not_intro hk)
    rw [he]
    exact ⟨e, rfl⟩
  · have hcut : ((header kind p ++ (p' ++ rest)).drop 17).take p.length = p' := by
      rw [drop_header, ← hlen, List.take_left]
    rw [hdec.1 hk]
    simp only [toNat_length hp, hcut]
    rw [if_neg (by omega), if_pos (bne_iff_ne.mpr hcrc)]
    exact ⟨_, rfl⟩

end Protocol

/-- **A burst of up to 32 bits never passes the frame check**: it changes the checksum, and the
    frame with the damaged payload in place of its own is refused, whatever follows it. -/
theorem burst_detected {p p' : Bytes} (hp : p.length ≤ Protocol.maxPayload.toNat) {k : Nat}
    (h : Burst k p p') :
    Digest.crc32 p' ≠ Digest.crc32 p ∧
      ∀ (kind : MessageKind) (rest : Bytes), ∃ e,
        Protocol.decodeFrame ((Protocol.encodeFrame kind p).take 17 ++ (p' ++ rest)) =
          .error (.refused e) := by
  have hcrc := crc32_ne_of_burst h
  refine ⟨hcrc, fun kind rest => ?_⟩
  rw [Protocol.encodeFrame_eq, Protocol.take_header]
  exact Protocol.decodeFrame_mismatch hp h.length hcrc rest

/-- The last bit of the second byte turned over. -/
theorem burst_detected_hello :
    Digest.crc32 [7, 128] ≠ Digest.crc32 [7, 0] ∧
      ∀ (kind : MessageKind) (rest : Bytes), ∃ e,
        Protocol.decodeFrame ((Protocol.encodeFrame kind [7, 0]).take 17 ++ ([7, 128] ++ rest)) =
          .error (.refused e) := by
  refine burst_detected (by decide) (k := 8) ⟨rfl, fun i hi => ?_, 15, by decide⟩
  by_cases hlow : i < 8
  · have hsame : ∀ j < 8, (payloadBits [7, 128])[j]? = (payloadBits [7, 0])[j]? := by decide
    exact absurd (hsame i hlow) hi
  · by_cases hhigh : i < 16
    · omega
    · have hout (p : Bytes) (hp : p.length = 2) : (payloadBits p)[i]? = none :=
        List.getElem?_eq_none (by rw [length_payloadBits, hp]; omega)
      exact absurd ((hout _ rfl).trans (hout _ rfl).symm) hi

end CacheDirectory
