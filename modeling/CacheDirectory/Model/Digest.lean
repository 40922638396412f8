/-
  File:      CacheDirectory/Model/Digest.lean
  Subject:   CRC-32 AND SHA-256 (digest.hpp), as the code computes them.

  Words are `UInt32`, so additions wrap and shifts drop bits as in the source. The static table
  of `crc32` is the function `crcTable`, one entry per index. `sha256` pads the message into a
  buffer of `paddedLength` bytes, then compresses block by block.
-/
import Mathlib.Data.Vector.Basic

namespace CacheDirectory.Digest

/-- `std::array<std::uint8_t, 32>`. -/
abbrev Sha256 := List.Vector UInt8 32

/-- A value-initialised digest. -/
def Sha256.zero : Sha256 := List.Vector.replicate 32 0

/-! ## 1. CRC-32 -/

/-- One of the eight steps behind a table entry. -/
def crcBit (c : UInt32) : UInt32 :=
  if c &&& 1 != 0 then (0xEDB88320 : UInt32) ^^^ (c >>> 1) else c >>> 1

/-- `table[i]`. -/
def crcTable (i : UInt32) : UInt32 := crcBit^[8] i

def crcByte (c : UInt32) (b : UInt8) : UInt32 :=
  crcTable ((c ^^^ b.toUInt32) &&& 0xFF) ^^^ (c >>> 8)

def crc32 (bytes : List UInt8) : UInt32 := bytes.foldl crcByte 0xFFFFFFFF ^^^ 0xFFFFFFFF

/-! ## 2. SHA-256 -/

/-- The eight words `h[0] .. h[7]`. -/
structure HashWords where
  a : UInt32
  b : UInt32
  c : UInt32
  d : UInt32
  e : UInt32
  f : UInt32
  g : UInt32
  h : UInt32
  deriving DecidableEq, Repr

def initialWords : HashWords :=
  ⟨0x6a09e667, 0xbb67ae85, 0x3c6ef372, 0xa54ff53a, 0x510e527f, 0x9b05688c, 0x1f83d9ab,
    0x5be0cd19⟩

def roundConstants : List UInt32 :=
  [0x428a2f98, 0x71374491, 0xb5c0fbcf, 0xe9b5dba5, 0x3956c25b, 0x59f111f1, 0x923f82a4,
    0xab1c5ed5, 0xd807aa98, 0x12835b01, 0x243185be, 0x550c7dc3, 0x72be5d74, 0x80deb1fe,
    0x9bdc06a7, 0xc19bf174, 0xe49b69c1, 0xefbe4786, 0x0fc19dc6, 0x240ca1cc, 0x2de92c6f,
    0x4a7484aa, 0x5cb0a9dc, 0x76f988da, 0x983e5152, 0xa831c66d, 0xb00327c8, 0xbf597fc7,
    0xc6e00bf3, 0xd5a79147, 0x06ca6351, 0x14292967, 0x27b70a85, 0x2e1b2138, 0x4d2c6dfc,
    0x53380d13, 0x650a7354, 0x766a0abb, 0x81c2c92e, 0x92722c85, 0xa2bfe8a1, 0xa81a664b,
    0xc24b8b70, 0xc76c51a3, 0xd192e819, 0xd6990624, 0xf40e3585, 0x106aa070, 0x19a4c116,
    0x1e376c08, 0x2748774c, 0x34b0bcb5, 0x391c0cb3, 0x4ed8aa4a, 0x5b9cca4f, 0x682e6ff3,
    0x748f82ee, 0x78a5636f, 0x84c87814, 0x8cc70208, 0x90befffa, 0xa4506ceb, 0xbef9a3f7,
    0xc67178f2]

/-- `blen`: room for the message, the byte `0x80` and the bit length, in whole blocks. -/
def paddedLength (size : Nat) : Nat := (size + 8 + 1 + 63) / 64 * 64

/-- `msg`: the message, `0x80`, zeros up to `blen`, and the bit length written big-endian over
    the last eight bytes. -/
def paddedMessage (bytes : List UInt8) : List UInt8 :=
  let blen := paddedLength bytes.length
  let msg := bytes ++ [0x80]
  let bitLen : UInt64 := UInt64.ofNat bytes.length * 8
  let msg := msg ++ List.replicate (blen - msg.length) 0
  (List.range 8).foldl
    (fun m i => m.set (blen - 8 + i) (bitLen >>> UInt64.ofNat (56 - 8 * i)).toUInt8) msg

/-- `(x >> n) | (x << (32 - n))`. -/
def rotr (x n : UInt32) : UInt32 := (x >>> n) ||| (x <<< (32 - n))

/-- Word `i` of the block at `oi`, big-endian. -/
def blockWord (msg : List UInt8) (oi i : Nat) : UInt32 :=
  ((msg.getD (oi + 4 * i) 0).toUInt32 <<< 24) |||
    ((msg.getD (oi + 4 * i + 1) 0).toUInt32 <<< 16) |||
    ((msg.getD (oi + 4 * i + 2) 0).toUInt32 <<< 8) ||| (msg.getD (oi + 4 * i + 3) 0).toUInt32

/-- `w[i]` from the sixteen words before it. -/
def scheduleWord (w : List UInt32) (i : Nat) : UInt32 :=
  let x := w.getD (i - 15) 0
  let y := w.getD (i - 2) 0
  let s0 := rotr x 7 ^^^ rotr x 18 ^^^ (x >>> 3)
  let s1 := rotr y 17 ^^^ rotr y 19 ^^^ (y >>> 10)
  w.getD (i - 16) 0 + s0 + w.getD (i - 7) 0 + s1

/-- `w[0] .. w[63]` of the block at `oi`. -/
def schedule (msg : List UInt8) (oi : Nat) : List UInt32 :=
  (List.range' 16 48).foldl (fun w i => w ++ [scheduleWord w i])
    ((List.range 16).map (blockWord msg oi))

/-- One round on the working words. -/
def shaRound (w : List UInt32) (s : HashWords) (i : Nat) : HashWords :=
  let s1 := rotr s.e 6 ^^^ rotr s.e 11 ^^^ rotr s.e 25
  let ch := (s.e &&& s.f) ^^^ (~~~ s.e &&& s.g)
  let t1 := s.h + s1 + ch + roundConstants.getD i 0 + w.getD i 0
  let s0 := rotr s.a 2 ^^^ rotr s.a 13 ^^^ rotr s.a 22
  let maj := (s.a &&& s.b) ^^^ (s.a &&& s.c) ^^^ (s.b &&& s.c)
  let t2 := s0 + maj
  ⟨t1 + t2, s.a, s.b, s.c, s.d + t1, s.e, s.f, s.g⟩

/-- The compression of one block into the hash words. -/
def compress (h : HashWords) (w : List UInt32) : HashWords :=
  let s := (List.range 64).foldl (shaRound w) h
  ⟨h.a + s.a, h.b + s.b, h.c + s.c, h.d + s.d, h.e + s.e, h.f + s.f, h.g + s.g, h.h + s.h⟩

/-- The four bytes of a word, the highest first. -/
def bigEndian (x : UInt32) : List UInt8 :=
  [(x >>> 24).toUInt8, (x >>> 16).toUInt8, (x >>> 8).toUInt8, x.toUInt8]

def HashWords.bytes (s : HashWords) : Sha256 :=
  ⟨bigEndian s.a ++ bigEndian s.b ++ bigEndian s.c ++ bigEndian s.d ++ bigEndian s.e ++
    bigEndian s.f ++ bigEndian s.g ++ bigEndian s.h, rfl⟩

def sha256 (bytes : List UInt8) : Sha256 :=
  let msg := paddedMessage bytes
  ((List.range (paddedLength bytes.length / 64)).foldl
    (fun h j => compress h (schedule msg (64 * j))) initialWords).bytes

/-! ## 3. Comparing and printing digests -/

/-- `digest_equal`: the differences of all bytes, or-ed together, are zero. -/
def digestEqual (a b : Sha256) : Bool :=
  (List.zipWith (· ^^^ ·) a.toList b.toList).foldl (· ||| ·) 0 == 0

theorem foldl_or_eq_zero : ∀ (xs : List UInt8) (acc : UInt8),
    xs.foldl (· ||| ·) acc = 0 ↔ acc = 0 ∧ ∀ x ∈ xs, x = 0
  | [], acc => by simp
  | x :: xs, acc => by
      rw [List.foldl_cons, foldl_or_eq_zero xs, UInt8.or_eq_zero_iff, List.forall_mem_cons,
        and_assoc]

theorem zipWith_xor_eq_zero : ∀ xs ys : List UInt8, xs.length = ys.length →
    ((∀ z ∈ List.zipWith (· ^^^ ·) xs ys, z = 0) ↔ xs = ys)
  | [], [], _ => by simp
  | [], _ :: _, h => by cases h
  | _ :: _, [], h => by cases h
  | x :: xs, y :: ys, h => by
      rw [List.zipWith_cons_cons, List.forall_mem_cons, UInt8.xor_eq_zero_iff,
        zipWith_xor_eq_zero xs ys (Nat.succ.inj h), List.cons.injEq]

/-- The comparison is equality. -/
@[simp] theorem digestEqual_iff {a b : Sha256} : digestEqual a b = true ↔ a = b := by
  unfold digestEqual
  rw [beq_iff_eq, foldl_or_eq_zero]
  have hlen : a.toList.length = b.toList.length := by rw [a.toList_length, b.toList_length]
  rw [zipWith_xor_eq_zero _ _ hlen]
  exact ⟨fun h => Subtype.ext h.2, fun h => ⟨rfl, by rw [h]⟩⟩

def hexDigit (n : UInt8) : Char := "0123456789abcdef".toList.getD n.toNat '0'

/-- `digest::hex`. -/
def hex (d : Sha256) : String :=
  String.ofList (d.toList.flatMap fun (b : UInt8) => [hexDigit (b >>> 4), hexDigit (b &&& 0x0F)])

end CacheDirectory.Digest
