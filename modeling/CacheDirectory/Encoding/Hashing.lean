/-
  File:      CacheDirectory/Encoding/Hashing.lean
  Subject:   digest::sha256 IS THE SECURE HASH STANDARD'S SHA-256.

  The standard speaks of bit strings and of roots of primes, the code of bytes and of sixty-four
  constants. Piece by piece the one is the other:

  * `roundConstant_eq`, `initialWords_words` -- the tables are the roots;
  * `shaRound_words`, `compress_words`, `schedule_toBitVec` -- one block;
  * `lengthWritten_eq`, `binaryOfBytes_paddedMessage` -- the buffer is the padded message;
  * `blockWord_toBitVec`, `blocks_words` -- its words, and all blocks one after the other;
  * `sha256_standard` -- the digest, and that the padding is in bounds and the shortest.
-/
import CacheDirectory.Library.SecureHash
import CacheDirectory.Model.Digest

namespace CacheDirectory.Digest

open Library

/-! ## 1. Words -/

/-- The two shifts of the source are the rotation of the standard. -/
theorem rotr_toBitVec (x : UInt32) {n : UInt32} (hpos : 0 < n) (hlt : n < 32) :
    (rotr x n).toBitVec = x.toBitVec.rotateRight n.toNat := by
  have hn : 0 < n.toNat ∧ n.toNat < 32 := ⟨hpos, hlt⟩
  have hsub : (32 - n).toNat = 32 - n.toNat := UInt32.toNat_sub_of_le 32 n (Nat.le_of_lt hn.2)
  have hright : (x >>> n).toBitVec = x.toBitVec >>> n.toNat := by
    rw [UInt32.toBitVec_shiftRight, BitVec.ushiftRight_eq', BitVec.toNat_umod,
      UInt32.toNat_toBitVec]
    exact congrArg (x.toBitVec >>> ·) (Nat.mod_eq_of_lt hn.2)
  have hleft : (x <<< (32 - n)).toBitVec = x.toBitVec <<< (32 - n.toNat) := by
    rw [UInt32.toBitVec_shiftLeft, BitVec.shiftLeft_eq', BitVec.toNat_umod, UInt32.toNat_toBitVec,
      hsub]
    exact congrArg (x.toBitVec <<< ·) (Nat.mod_eq_of_lt (Nat.sub_lt (by decide) hn.1))
  rw [rotr, UInt32.toBitVec_or, hright, hleft, BitVec.rotateRight_def, Nat.mod_eq_of_lt hn.2]

theorem bigSigma0_toBitVec (x : UInt32) :
    (rotr x 2 ^^^ rotr x 13 ^^^ rotr x 22).toBitVec = SecureHash.bigSigma0 x.toBitVec := by
  simp (disch := decide) only [UInt32.toBitVec_xor, rotr_toBitVec]
  rfl

theorem bigSigma1_toBitVec (x : UInt32) :
    (rotr x 6 ^^^ rotr x 11 ^^^ rotr x 25).toBitVec = SecureHash.bigSigma1 x.toBitVec := by
  simp (disch := decide) only [UInt32.toBitVec_xor, rotr_toBitVec]
  rfl

theorem smallSigma0_toBitVec (x : UInt32) :
    (rotr x 7 ^^^ rotr x 18 ^^^ (x >>> 3)).toBitVec = SecureHash.smallSigma0 x.toBitVec := by
  simp (disch := decide) only [UInt32.toBitVec_xor, rotr_toBitVec]
  rfl

theorem smallSigma1_toBitVec (x : UInt32) :
    (rotr x 17 ^^^ rotr x 19 ^^^ (x >>> 10)).toBitVec = SecureHash.smallSigma1 x.toBitVec := by
  simp (disch := decide) only [UInt32.toBitVec_xor, rotr_toBitVec]
  rfl

/-- The eight words as those of the standard. -/
def HashWords.words (s : HashWords) : SecureHash.Words :=
  ⟨s.a.toBitVec, s.b.toBitVec, s.c.toBitVec, s.d.toBitVec, s.e.toBitVec, s.f.toBitVec, s.g.toBitVec,
    s.h.toBitVec⟩

/-! ### Constants -/

/-- With a whole part in front the word is next to the `k`-th root of `p`, thirty-two places further
    left. -/
def NextToRoot (k p : ℕ) (x : UInt32) : Prop :=
  ∃ whole < 7, (whole * 2 ^ 32 + x.toNat) ^ k ≤ p * 2 ^ (32 * k) ∧
    p * 2 ^ (32 * k) < (whole * 2 ^ 32 + x.toNat + 1) ^ k

instance (k p : ℕ) (x : UInt32) : Decidable (NextToRoot k p x) :=
  inferInstanceAs (Decidable (∃ whole < 7, _))

theorem NextToRoot.toBitVec_eq {k p : ℕ} {x : UInt32} (h : NextToRoot k p x) (hk : k ≠ 0) :
    x.toBitVec = SecureHash.rootBits k p := by
  obtain ⟨whole, -, hlo, hhi⟩ := h
  have hx : x.toNat < 2 ^ 32 := x.toNat_lt
  rw [SecureHash.rootBits_eq hk hlo hhi]
  apply BitVec.eq_of_toNat_eq
  rw [BitVec.toNat_ofNat, UInt32.toNat_toBitVec]
  omega

/-- **`k[t]` is from the cube root of a prime.** -/
theorem roundConstant_eq {t : ℕ} (ht : t < 64) :
    (roundConstants.getD t 0).toBitVec = SecureHash.roundConstant t := by
  have htable : ∀ t < 64,
      NextToRoot 3 (SecureHash.firstPrimes.getD t 0) (roundConstants.getD t 0) := by
    decide +kernel
  rw [SecureHash.roundConstant, SecureHash.nth_prime ht]
  exact (htable t ht).toBitVec_eq (by decide)

/-- The eight words as a table. -/
def HashWords.toList (s : HashWords) : List UInt32 := [s.a, s.b, s.c, s.d, s.e, s.f, s.g, s.h]

theorem initialWord_eq {i : ℕ} (hi : i < 8) :
    (initialWords.toList.getD i 0).toBitVec = SecureHash.initialWord i := by
  have htable : ∀ i < 8,
      NextToRoot 2 (SecureHash.firstPrimes.getD i 0) (initialWords.toList.getD i 0) := by
    decide +kernel
  rw [SecureHash.initialWord, SecureHash.nth_prime (Nat.lt_trans hi (by decide))]
  exact (htable i hi).toBitVec_eq (by decide)

/-- **`h[0] .. h[7]` are from the square roots of primes.** -/
theorem initialWords_words : initialWords.words = SecureHash.initialHash := by
  have hword : ∀ i < 8, SecureHash.initialWord i = (initialWords.toList.getD i 0).toBitVec :=
    fun i hi => (initialWord_eq hi).symm
  unfold SecureHash.initialHash
  rw [hword 0 (by decide), hword 1 (by decide), hword 2 (by decide), hword 3 (by decide),
    hword 4 (by decide), hword 5 (by decide), hword 6 (by decide), hword 7 (by decide)]
  rfl

/-! ## 2. One block -/

/-- **One round**, on a schedule word that is the standard's. -/
theorem shaRound_words {w : List UInt32} {W : ℕ → SecureHash.Word} (s : HashWords) {t : ℕ}
    (ht : t < 64) (hw : (w.getD t 0).toBitVec = W t) :
    (shaRound w s t).words = SecureHash.round W s.words t := by
  have ht₁ : (s.h + (rotr s.e 6 ^^^ rotr s.e 11 ^^^ rotr s.e 25) +
      ((s.e &&& s.f) ^^^ (~~~ s.e &&& s.g)) + roundConstants.getD t 0 + w.getD t 0).toBitVec =
      s.words.h + SecureHash.bigSigma1 s.words.e + SecureHash.ch s.words.e s.words.f s.words.g +
        SecureHash.roundConstant t + W t := by
    rw [UInt32.toBitVec_add, UInt32.toBitVec_add, UInt32.toBitVec_add, UInt32.toBitVec_add,
      bigSigma1_toBitVec, roundConstant_eq ht, hw]
    rfl
  have ht₂ : ((rotr s.a 2 ^^^ rotr s.a 13 ^^^ rotr s.a 22) +
      ((s.a &&& s.b) ^^^ (s.a &&& s.c) ^^^ (s.b &&& s.c))).toBitVec =
      SecureHash.bigSigma0 s.words.a + SecureHash.maj s.words.a s.words.b s.words.c := by
    rw [UInt32.toBitVec_add, bigSigma0_toBitVec]
    rfl
  unfold shaRound SecureHash.round
  rw [← ht₁, ← ht₂, HashWords.words]
  rfl

/-- **One block**, on a schedule that is the standard's. -/
theorem compress_words {w : List UInt32} {block : ℕ → SecureHash.Word} (h : HashWords)
    (hw : ∀ t < 64, (w.getD t 0).toBitVec = SecureHash.schedule block t) :
    (compress h w).words = SecureHash.hashBlock h.words block := by
  have hrounds : ((List.range 64).foldl (shaRound w) h).words =
      (List.range 64).foldl (SecureHash.round (SecureHash.schedule block)) h.words := by
    refine List.foldl_rel (r := fun (s : HashWords) S => s.words = S) rfl fun t ht s S hs => ?_
    have hlt : t < 64 := List.mem_range.mp ht
    rw [shaRound_words s hlt (hw t hlt), hs]
  unfold compress SecureHash.hashBlock
  rw [← hrounds]
  simp only [HashWords.words, UInt32.toBitVec_add, BitVec.add_comm]

/-- A schedule word, from earlier words that are the standard's. -/
theorem scheduleWord_toBitVec {w : List UInt32} {block : ℕ → SecureHash.Word} {t : ℕ} (ht : 16 ≤ t)
    (hw : ∀ u < t, (w.getD u 0).toBitVec = SecureHash.schedule block u) :
    (scheduleWord w t).toBitVec = SecureHash.schedule block t := by
  have h2 := hw (t - 2) (by omega)
  have h7 := hw (t - 7) (by omega)
  have h15 := hw (t - 15) (by omega)
  have h16 := hw (t - 16) (by omega)
  rw [SecureHash.schedule_ge ht, ← h2, ← h7, ← h15, ← h16]
  rw [scheduleWord, UInt32.toBitVec_add, UInt32.toBitVec_add, UInt32.toBitVec_add,
    smallSigma0_toBitVec, smallSigma1_toBitVec]
  ac_rfl

/-- **The message schedule**, as far as the loop has come; the induction is on its steps. -/
theorem schedule_entries {msg : List UInt8} {oi : ℕ} {block : ℕ → SecureHash.Word}
    (hblock : ∀ i < 16, (blockWord msg oi i).toBitVec = block i) (n : ℕ) :
    let w := (List.range' 16 n).foldl (fun w i => w ++ [scheduleWord w i])
      ((List.range 16).map (blockWord msg oi))
    w.length = 16 + n ∧ ∀ t < 16 + n, (w.getD t 0).toBitVec = SecureHash.schedule block t := by
  induction n with
  | zero =>
      refine ⟨by simp, fun t ht => ?_⟩
      have hentry : ((List.range 16).map (blockWord msg oi)).getD t 0 = blockWord msg oi t := by
        rw [List.getD_eq_getElem _ _ (by simpa using ht), List.getElem_map, List.getElem_range]
      rw [SecureHash.schedule_lt ht, List.range'_zero, List.foldl_nil, hentry, hblock t ht]
  | succ n ih =>
      obtain ⟨hlen, hentries⟩ := ih
      rw [List.range'_concat, List.foldl_append, Nat.one_mul]
      set w := (List.range' 16 n).foldl (fun w i => w ++ [scheduleWord w i])
        ((List.range 16).map (blockWord msg oi))
      refine ⟨?_, fun t ht => ?_⟩
      · rw [List.foldl_cons, List.foldl_nil, List.length_append, hlen, List.length_singleton,
          Nat.add_assoc]
      · rw [List.foldl_cons, List.foldl_nil]
        have hsplit : t < 16 + n ∨ t = 16 + n := by omega
        rcases hsplit with hold | hnew
        · rw [List.getD_append _ _ _ _ (hlen ▸ hold)]
          exact hentries t hold
        · rw [hnew, List.getD_append_right _ _ _ _ (Nat.le_of_eq hlen), hlen, Nat.sub_self]
          exact scheduleWord_toBitVec (Nat.le_add_right 16 n) hentries

/-- **`w[0] .. w[63]` are the standard's**, on a block whose words are. -/
theorem schedule_toBitVec {msg : List UInt8} {oi : ℕ} {block : ℕ → SecureHash.Word}
    (hblock : ∀ i < 16, (blockWord msg oi i).toBitVec = block i) :
    ∀ t < 64, ((schedule msg oi).getD t 0).toBitVec = SecureHash.schedule block t :=
  (schedule_entries hblock 48).2

/-! ## 3. Padding -/

/-- The buffer with its zeros, before the length is written. -/
def zeroFilled (bytes : List UInt8) : List UInt8 :=
  bytes ++ [0x80] ++ List.replicate (paddedLength bytes.length - (bytes ++ [0x80]).length) 0

/-- `static_cast<std::uint8_t>(bit_len >> (56 - 8 * i))`. -/
def lengthByte (size i : ℕ) : UInt8 :=
  ((UInt64.ofNat size * 8) >>> UInt64.ofNat (56 - 8 * i)).toUInt8

/-- The buffer behind the first `n` of the eight writes. -/
def lengthWritten (bytes : List UInt8) (n : ℕ) : List UInt8 :=
  (List.range n).foldl
    (fun m i => m.set (paddedLength bytes.length - 8 + i) (lengthByte bytes.length i))
    (zeroFilled bytes)

theorem paddedMessage_written (bytes : List UInt8) :
    paddedMessage bytes = lengthWritten bytes 8 := rfl

/-- **The padded length is the least valid one.** -/
theorem paddedLength_least (size : ℕ) :
    IsLeast {n | 64 ∣ n ∧ size + 1 + 8 ≤ n} (paddedLength size) := by
  unfold paddedLength
  refine ⟨⟨⟨_, Nat.mul_comm _ _⟩, by omega⟩, ?_⟩
  rintro n ⟨⟨k, rfl⟩, hle⟩
  omega

-- a length of 55 is the last one with room in its own block
example : [0, 55, 56, 63, 64].map paddedLength = [64, 64, 128, 128, 128] := by decide

/-- `blen` as the source computes it, in a word. -/
def blen (size : ℕ) : UInt64 := (UInt64.ofNat size + 8 + 1 + 63) / 64 * 64

theorem blen_toNat {size : ℕ} (h : size < 2 ^ 61) : (blen size).toNat = paddedLength size := by
  have hword : size < UInt64.size := Nat.lt_trans h (by decide)
  unfold blen paddedLength
  simp only [UInt64.toNat_mul, UInt64.toNat_div, UInt64.toNat_add, UInt64.toNat_ofNat,
    UInt64.toNat_ofNat_of_lt' hword, Nat.reducePow, Nat.reduceMod]
  omega

/-- The message as a bit string. -/
def message (bytes : List UInt8) (h : bytes.length < 2 ^ 61) : SecureHash.Message :=
  ⟨binaryOfBytes bytes, by
    rw [length_binaryOfBytes]
    omega⟩

/-- Writes at the places behind `front`, one after the other. -/
theorem foldl_set_behind {α : Type*} (front : List α) (v : ℕ → α) (back : List α) :
    ∀ n ≤ back.length,
      (List.range n).foldl (fun m i => m.set (front.length + i) (v i)) (front ++ back) =
        front ++ ((List.range n).map v ++ back.drop n)
  | 0, _ => rfl
  | n + 1, hn => by
      have ih := foldl_set_behind front v back n (Nat.le_of_succ_le hn)
      have hwritten : ((List.range n).map v).length = n := by
        rw [List.length_map, List.length_range]
      have hset : (back.drop n).set 0 (v n) = v n :: back.drop (n + 1) := by
        rw [List.drop_eq_getElem_cons hn, List.set_cons_zero]
      rw [List.range_succ, List.foldl_append, ih, List.foldl_cons, List.foldl_nil,
        List.set_append_right _ _ (Nat.le_add_right _ _), Nat.add_sub_cancel_left,
        List.set_append_right _ _ (Nat.le_of_eq hwritten), hwritten, Nat.sub_self, hset,
        List.map_append, List.append_assoc]
      rfl

/-- The zeros between the byte `0x80` and the length. -/
def zeros (size : ℕ) : ℕ := paddedLength size - 8 - (size + 1)

/-- All that stands in front of the length. -/
def beforeLength (bytes : List UInt8) : List UInt8 :=
  bytes ++ 0x80 :: List.replicate (zeros bytes.length) 0

theorem length_beforeLength (bytes : List UInt8) :
    (beforeLength bytes).length + 8 = paddedLength bytes.length := by
  have hle : bytes.length + 1 + 8 ≤ paddedLength bytes.length := (paddedLength_least _).1.2
  rw [beforeLength, List.length_append, List.length_cons, List.length_replicate, zeros]
  omega

theorem zeroFilled_eq (bytes : List UInt8) :
    zeroFilled bytes = beforeLength bytes ++ List.replicate 8 0 := by
  have hle : bytes.length + 1 + 8 ≤ paddedLength bytes.length := (paddedLength_least _).1.2
  have hcount : paddedLength bytes.length - (bytes ++ [0x80]).length = zeros bytes.length + 8 := by
    rw [List.length_append, List.length_singleton, zeros]
    omega
  rw [zeroFilled, hcount, ← List.replicate_append_replicate, beforeLength, List.append_assoc,
    List.append_assoc]
  rfl

/-- **The buffer between two writes.** -/
theorem lengthWritten_eq (bytes : List UInt8) {n : ℕ} (hn : n ≤ 8) : lengthWritten bytes n =
    beforeLength bytes ++
      ((List.range n).map (lengthByte bytes.length) ++ List.replicate (8 - n) 0) := by
  have hplace : paddedLength bytes.length - 8 = (beforeLength bytes).length := by
    rw [← length_beforeLength, Nat.add_sub_cancel]
  rw [lengthWritten, zeroFilled_eq, hplace,
    foldl_set_behind _ _ _ n (by rw [List.length_replicate]; exact hn), List.drop_replicate]

theorem length_lengthWritten (bytes : List UInt8) {n : ℕ} (hn : n ≤ 8) :
    (lengthWritten bytes n).length = paddedLength bytes.length := by
  rw [lengthWritten_eq bytes hn, ← length_beforeLength, List.length_append, List.length_append,
    List.length_map, List.length_range, List.length_replicate, Nat.add_sub_cancel' hn]

theorem length_paddedMessage (bytes : List UInt8) :
    (paddedMessage bytes).length = paddedLength bytes.length :=
  length_lengthWritten bytes (Nat.le_refl 8)

/-- A byte of the length in bits, as long as that is a number of sixty-four bits. -/
theorem lengthByte_eq {size i : ℕ} (hsize : size < 2 ^ 61) (hi : i < 8) :
    lengthByte size i = UInt8.ofNat ((8 * size) >>> (8 * (8 - 1 - i))) := by
  have hbits : (UInt64.ofNat size * 8).toNat = 8 * size := by
    have hword : size < UInt64.size := Nat.lt_trans hsize (by decide)
    have hproduct : size * 8 < 2 ^ 64 := Nat.mul_lt_mul_of_pos_right hsize (by decide)
    rw [UInt64.toNat_mul, UInt64.toNat_ofNat_of_lt' hword]
    exact (Nat.mod_eq_of_lt hproduct).trans (Nat.mul_comm _ _)
  have hshift : (UInt64.ofNat (56 - 8 * i)).toNat = 8 * (8 - 1 - i) := by
    have hword : 56 - 8 * i < UInt64.size := Nat.lt_of_le_of_lt (Nat.sub_le _ _) (by decide)
    rw [UInt64.toNat_ofNat_of_lt' hword]
    omega
  have hwidth : 8 * (8 - 1 - i) % 64 = 8 * (8 - 1 - i) := Nat.mod_eq_of_lt (by omega)
  apply UInt8.toNat_inj.mp
  rw [lengthByte, UInt64.toNat_toUInt8, UInt64.toNat_shiftRight, hbits, hshift, hwidth,
    UInt8.toNat_ofNat']

/-- **The padded message is the standard's.** -/
theorem binaryOfBytes_paddedMessage {bytes : List UInt8} (h : bytes.length < 2 ^ 61) :
    binaryOfBytes (paddedMessage bytes) = SecureHash.pad (binaryOfBytes bytes) := by
  have hle : bytes.length + 1 + 8 ≤ paddedLength bytes.length := (paddedLength_least _).1.2
  have hzeros : SecureHash.zeroBits (8 * bytes.length) = 7 + 8 * zeros bytes.length := by
    obtain ⟨k, hk⟩ := (paddedLength_least bytes.length).1.1
    apply SecureHash.zeroBits_eq
    · unfold zeros
      omega
    · unfold zeros paddedLength
      omega
  have hfront : binaryOfBytes (beforeLength bytes) =
      binaryOfBytes bytes ++ true :: List.replicate (7 + 8 * zeros bytes.length) false := by
    rw [beforeLength, binaryOfBytes_append, binaryOfBytes_cons, binaryOfBytes_zeros,
      ← List.replicate_append_replicate]
    rfl
  have hlength : (List.range 8).map (lengthByte bytes.length) =
      (List.range 8).map fun i => UInt8.ofNat ((8 * bytes.length) >>> (8 * (8 - 1 - i))) :=
    List.map_congr_left fun i hi => lengthByte_eq h (List.mem_range.mp hi)
  rw [paddedMessage_written, lengthWritten_eq bytes (Nat.le_refl 8), Nat.sub_self,
    List.replicate_zero, List.append_nil, binaryOfBytes_append, hfront, hlength,
    ← binary_of_bytes _ 8, SecureHash.pad, length_binaryOfBytes, hzeros]

/-! ## 4. The digest -/

/-- A byte moved to its place in a word, no bit lost. -/
theorem toNat_placed (b : UInt8) {n : UInt32} (hn : n ≤ 24) :
    (b.toUInt32 <<< n).toNat = b.toNat * 2 ^ n.toNat := by
  have hplace : n.toNat ≤ 24 := hn
  have hwidth : n.toNat % 32 = n.toNat := Nat.mod_eq_of_lt (by omega)
  have hlt : b.toNat * 2 ^ n.toNat < 2 ^ 32 :=
    calc b.toNat * 2 ^ n.toNat < 2 ^ 8 * 2 ^ n.toNat :=
          Nat.mul_lt_mul_of_pos_right b.toNat_lt (Nat.two_pow_pos _)
      _ = 2 ^ (8 + n.toNat) := (Nat.pow_add _ _ _).symm
      _ ≤ 2 ^ 32 := Nat.pow_le_pow_right (by decide) (by omega)
  rw [UInt32.toNat_shiftLeft, UInt8.toNat_toUInt32, hwidth, Nat.shiftLeft_eq, Nat.mod_eq_of_lt hlt]

/-- Four bytes shifted and or-ed are the number they are the digits of. -/
theorem toNat_bigEndian (b₀ b₁ b₂ b₃ : UInt8) :
    ((b₀.toUInt32 <<< 24) ||| (b₁.toUInt32 <<< 16) ||| (b₂.toUInt32 <<< 8) ||| b₃.toUInt32).toNat =
      ofBinary (binaryOfBytes [b₀, b₁, b₂, b₃]) := by
  have h₁ : b₁.toNat < 2 ^ 8 := b₁.toNat_lt
  have h₂ : b₂.toNat < 2 ^ 8 := b₂.toNat_lt
  have h₃ : b₃.toNat < 2 ^ 8 := b₃.toNat_lt
  -- an or with what fits below the lowest bit is a sum
  have hor (x y n : ℕ) (hy : y < 2 ^ n) : x * 2 ^ n ||| y = x * 2 ^ n + y := by
    rw [Nat.mul_comm, Nat.two_pow_add_eq_or_of_lt hy]
  have hnil : ofBinary (binaryOfBytes []) = 0 := rfl
  have p₀ : (b₀.toUInt32 <<< 24).toNat = b₀.toNat * 2 ^ 24 := toNat_placed b₀ (by decide)
  have p₁ : (b₁.toUInt32 <<< 16).toNat = b₁.toNat * 2 ^ 16 := toNat_placed b₁ (by decide)
  have p₂ : (b₂.toUInt32 <<< 8).toNat = b₂.toNat * 2 ^ 8 := toNat_placed b₂ (by decide)
  rw [UInt32.toNat_or, UInt32.toNat_or, UInt32.toNat_or, p₀, p₁, p₂, UInt8.toNat_toUInt32,
    Nat.or_assoc, Nat.or_assoc, hor _ b₃.toNat 8 h₃, hor _ _ 16 (by omega), hor _ _ 24 (by omega)]
  simp only [ofBinary_binaryOfBytes, hnil, List.length_cons, List.length_nil]
  omega

theorem take_drop_four {msg : List UInt8} {o : ℕ} (h : o + 3 < msg.length) : (msg.drop o).take 4 =
    [msg.getD o 0, msg.getD (o + 1) 0, msg.getD (o + 2) 0, msg.getD (o + 3) 0] := by
  have hhead (p : ℕ) (hp : p < msg.length) : msg.drop p = msg.getD p 0 :: msg.drop (p + 1) := by
    rw [List.drop_eq_getElem_cons hp, List.getD_eq_getElem _ _ hp]
  rw [hhead o (by omega), hhead (o + 1) (by omega), hhead (o + 2) (by omega), hhead (o + 3) h]
  rfl

/-- **A word of a block is the standard's**, as long as it is inside the message. -/
theorem blockWord_toBitVec {msg : List UInt8} {i j : ℕ} (h : 64 * j + 4 * i + 3 < msg.length) :
    (blockWord msg (64 * j) i).toBitVec = SecureHash.blockWord (binaryOfBytes msg) j i := by
  have hwindow : ((binaryOfBytes msg).drop (512 * j + 32 * i)).take 32 =
      binaryOfBytes ((msg.drop (64 * j + 4 * i)).take 4) := by
    have hplace : 512 * j + 32 * i = 8 * (64 * j + 4 * i) := by omega
    rw [hplace, ← take_drop_binaryOfBytes]
  apply BitVec.eq_of_toNat_eq
  rw [SecureHash.blockWord, hwindow, take_drop_four h, ← toNat_bigEndian, BitVec.toNat_ofNat,
    UInt32.toNat_toBitVec]
  exact (Nat.mod_eq_of_lt (UInt32.toNat_lt _)).symm

/-- The bytes of a word are its bits. -/
theorem binaryOfBytes_bigEndian (x : UInt32) :
    binaryOfBytes (bigEndian x) = binary 32 x.toBitVec.toNat := by
  have hbyte (n : UInt32) (hn : n < 32) :
      (x >>> n).toUInt8 = UInt8.ofNat (x.toNat >>> n.toNat) := by
    have hwidth : n.toNat % 32 = n.toNat := Nat.mod_eq_of_lt hn
    apply UInt8.toNat_inj.mp
    rw [UInt32.toNat_toUInt8, UInt32.toNat_shiftRight, hwidth, UInt8.toNat_ofNat']
  rw [binary_of_bytes _ 4, bigEndian, hbyte 24 (by decide), hbyte 16 (by decide),
    hbyte 8 (by decide)]
  rfl

theorem binaryOfBytes_bytes (s : HashWords) : binaryOfBytes s.bytes.toList = s.words.digest := by
  have hbytes : s.bytes.toList = bigEndian s.a ++ bigEndian s.b ++ bigEndian s.c ++ bigEndian s.d ++
      bigEndian s.e ++ bigEndian s.f ++ bigEndian s.g ++ bigEndian s.h := rfl
  rw [hbytes]
  simp only [binaryOfBytes_append, binaryOfBytes_bigEndian, HashWords.words,
    SecureHash.Words.digest, List.flatMap_cons, List.flatMap_nil, List.append_nil,
    List.append_assoc]

/-- **The hash words behind the last block**, by `compress_words` on every block. -/
theorem blocks_words {bytes : List UInt8} (h : bytes.length < 2 ^ 61) :
    ((List.range (paddedLength bytes.length / 64)).foldl
      (fun h j => compress h (schedule (paddedMessage bytes) (64 * j))) initialWords).words =
      (List.range ((SecureHash.pad (binaryOfBytes bytes)).length / 512)).foldl
        (fun H i => SecureHash.hashBlock H
          (SecureHash.blockWord (SecureHash.pad (binaryOfBytes bytes)) i))
        SecureHash.initialHash := by
  have hlength := length_paddedMessage bytes
  have hblocks : (binaryOfBytes (paddedMessage bytes)).length / 512 =
      paddedLength bytes.length / 64 := by
    rw [length_binaryOfBytes, hlength]
    omega
  rw [← binaryOfBytes_paddedMessage h, hblocks]
  refine List.foldl_rel (r := fun (s : HashWords) S => s.words = S) initialWords_words
    fun j hj s S hs => ?_
  have hinside : 64 * j + 64 ≤ (paddedMessage bytes).length := by
    have hlt : j < paddedLength bytes.length / 64 := List.mem_range.mp hj
    omega
  have hwords : ∀ i < 16, (blockWord (paddedMessage bytes) (64 * j) i).toBitVec =
      SecureHash.blockWord (binaryOfBytes (paddedMessage bytes)) j i :=
    fun i hi => blockWord_toBitVec (by omega)
  rw [compress_words s (schedule_toBitVec hwords), hs]

/-- **`sha256` is SHA-256**: for a message whose length in bits is a number of sixty-four bits the
    digest is the standard's. The size of the buffer is computed without a wrap-around, is the least
    one with room for the message, a byte and the length in whole blocks, and every byte of the
    length is written inside it. -/
theorem sha256_standard (bytes : List UInt8) (h : bytes.length < 2 ^ 61) :
    binaryOfBytes (sha256 bytes).toList = SecureHash.sha256 (message bytes h) ∧
      (blen bytes.length).toNat = paddedLength bytes.length ∧
      IsLeast {n | 64 ∣ n ∧ bytes.length + 1 + 8 ≤ n} (paddedLength bytes.length) ∧
      (paddedMessage bytes).length = paddedLength bytes.length ∧
      ∀ i < 8, 8 ≤ paddedLength bytes.length ∧
        paddedLength bytes.length - 8 + i < (lengthWritten bytes i).length := by
  refine ⟨?_, blen_toNat h, paddedLength_least _, length_paddedMessage bytes, fun i hi => ?_⟩
  · rw [SecureHash.sha256, message, ← blocks_words h, ← binaryOfBytes_bytes]
    rfl
  · have hlength := length_beforeLength bytes
    rw [length_lengthWritten bytes (Nat.le_of_lt hi)]
    omega

/-- `abc`. -/
def threeBytes : List UInt8 := [97, 98, 99]

/-- `abcd`, `bcde` and so on to `nopq`: 448 bits, so that the padding needs a second block. -/
def twoBlocks : List UInt8 :=
  (List.range 14).flatMap fun i => (List.range 4).map fun j => UInt8.ofNat (97 + i + j)

/-- The public vectors for the empty input, for three bytes and for two blocks. -/
theorem sha256_standard_vectors :
    SecureHash.sha256 (message [] (by decide)) = binaryOfBytes (sha256 []).toList ∧
      hex (sha256 []) = "e3b0c44298fc1c149afbf4c8996fb92427ae41e4649b934ca495991b7852b855" ∧
      SecureHash.sha256 (message threeBytes (by decide)) =
        binaryOfBytes (sha256 threeBytes).toList ∧
      hex (sha256 threeBytes) =
        "ba7816bf8f01cfea414140de5dae2223b00361a396177a9cb410ff61f20015ad" ∧
      SecureHash.sha256 (message twoBlocks (by decide)) =
        binaryOfBytes (sha256 twoBlocks).toList ∧
      paddedLength twoBlocks.length = 128 ∧
      hex (sha256 twoBlocks) =
        "248d6a61d20638b8e5c026930c3e6039a33ce45964ff2167f6ecedd419db06c1" := by
  refine ⟨(sha256_standard [] (by decide)).1.symm, by decide +kernel,
    (sha256_standard threeBytes (by decide)).1.symm, by decide +kernel,
    (sha256_standard twoBlocks (by decide)).1.symm, by decide, by decide +kernel⟩

end CacheDirectory.Digest
