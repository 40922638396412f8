/-
  File:      CacheDirectory/Library/BitStrings.lean
  Subject:   NUMBERS AND BYTES AS BIT STRINGS, THE MOST SIGNIFICANT BIT FIRST.

  `binary w n` are the `w` low binary digits of `n`, `ofBinary` is the number a string denotes, and
  `binaryOfBytes` writes bytes one behind the other.

  * `ofBinary_binary` -- reading what was written, modulo `2 ^ w`;
  * `binary_add`, `binary_of_bytes` -- a number cut into its high and its low digits, into bytes;
  * `ofBinary_binaryOfBytes` -- bytes denote the number they are the digits of to the base 256;
  * `take_drop_binaryOfBytes` -- a window of whole bytes.
-/
import Mathlib.Data.List.Induction
import Mathlib.Data.Nat.Bitwise

namespace CacheDirectory.Library

/-! ## 1. Numbers -/

/-- The `w` low binary digits of `n`, the highest first. -/
def binary (w n : Nat) : List Bool := (List.range w).map fun i => n.testBit (w - 1 - i)

/-- The number a bit string denotes. -/
def ofBinary (bs : List Bool) : Nat := bs.foldl (fun n b => 2 * n + b.toNat) 0

@[simp] theorem length_binary (w n : Nat) : (binary w n).length = w := by
  simp [binary]

/-- One more digit at the low end. -/
theorem binary_succ (w n : Nat) : binary (w + 1) n = binary w (n / 2) ++ [n.testBit 0] := by
  unfold binary
  rw [List.range_succ, List.map_append, List.map_singleton, Nat.add_sub_cancel, Nat.sub_self]
  refine congrArg (· ++ [n.testBit 0]) (List.map_congr_left fun i hi => ?_)
  have hplace : w - i = w - 1 - i + 1 := by
    rw [List.mem_range] at hi
    omega
  rw [hplace, Nat.testBit_succ]

/-- **High and low digits.** -/
theorem binary_add (v n : Nat) : ∀ w : Nat, binary (v + w) n = binary v (n >>> w) ++ binary w n
  | 0 => by
      rw [Nat.shiftRight_zero, Nat.add_zero]
      exact (List.append_nil _).symm
  | w + 1 => by
      have hshift : (n / 2) >>> w = n >>> (w + 1) := by
        rw [Nat.add_comm w 1, Nat.shiftRight_add, Nat.shiftRight_one]
      rw [← Nat.add_assoc, binary_succ, binary_succ, binary_add v (n / 2) w, hshift,
        List.append_assoc]

/-- Digits above the width do not show. -/
theorem binary_mod (w n : Nat) : binary w (n % 2 ^ w) = binary w n := by
  refine List.map_congr_left fun i hi => ?_
  have hlt : w - 1 - i < w := by
    rw [List.mem_range] at hi
    omega
  rw [Nat.testBit_mod_two_pow, decide_eq_true hlt, Bool.true_and]

theorem ofBinary_concat (bs : List Bool) (b : Bool) :
    ofBinary (bs ++ [b]) = 2 * ofBinary bs + b.toNat := by
  unfold ofBinary
  rw [List.foldl_append]
  rfl

/-- **Reading what was written.** -/
theorem ofBinary_binary : ∀ w n : Nat, ofBinary (binary w n) = n % 2 ^ w
  | 0, n => by
      rw [Nat.pow_zero, Nat.mod_one]
      rfl
  | w + 1, n => by
      have hlow : (n.testBit 0).toNat = n % 2 := by
        rw [Nat.testBit_zero]
        rcases Nat.mod_two_eq_zero_or_one n with h | h
        · rw [h]
          rfl
        · rw [h]
          rfl
      rw [binary_succ, ofBinary_concat, ofBinary_binary w, hlow, Nat.pow_succ', Nat.mod_mul,
        Nat.add_comm]

theorem ofBinary_append (xs : List Bool) : ∀ ys : List Bool,
    ofBinary (xs ++ ys) = ofBinary xs * 2 ^ ys.length + ofBinary ys := by
  intro ys
  induction ys using List.reverseRecOn with
  | nil => simp [ofBinary]
  | append_singleton ys y ih =>
      rw [← List.append_assoc, ofBinary_concat, ofBinary_concat, ih, List.length_append,
        List.length_singleton, Nat.pow_succ', Nat.mul_add, Nat.mul_left_comm 2, Nat.add_assoc]

/-! ## 2. Bytes -/

/-- Bytes one behind the other. -/
def binaryOfBytes (bs : List UInt8) : List Bool := bs.flatMap fun b => binary 8 b.toNat

theorem binaryOfBytes_cons (b : UInt8) (bs : List UInt8) :
    binaryOfBytes (b :: bs) = binary 8 b.toNat ++ binaryOfBytes bs := List.flatMap_cons

theorem binaryOfBytes_append (xs ys : List UInt8) :
    binaryOfBytes (xs ++ ys) = binaryOfBytes xs ++ binaryOfBytes ys := List.flatMap_append

@[simp] theorem length_binaryOfBytes : ∀ bs : List UInt8, (binaryOfBytes bs).length = 8 * bs.length
  | [] => rfl
  | b :: bs => by
      rw [binaryOfBytes_cons, List.length_append, length_binary, length_binaryOfBytes bs,
        List.length_cons, Nat.mul_succ, Nat.add_comm]

theorem binaryOfBytes_zeros : ∀ n : Nat,
    binaryOfBytes (List.replicate n 0) = List.replicate (8 * n) false
  | 0 => rfl
  | n + 1 => by
      rw [List.replicate_succ, binaryOfBytes_cons, binaryOfBytes_zeros n, Nat.mul_succ,
        Nat.add_comm, ← List.replicate_append_replicate]
      rfl

theorem take_binaryOfBytes (n : Nat) (bs : List UInt8) :
    (binaryOfBytes bs).take (8 * n) = binaryOfBytes (bs.take n) := by
  by_cases hn : n ≤ bs.length
  · have hlen : 8 * n = (binaryOfBytes (bs.take n)).length := by
      rw [length_binaryOfBytes, List.length_take, Nat.min_eq_left hn]
    conv_lhs => rw [← List.take_append_drop n bs, binaryOfBytes_append, hlen, List.take_left]
  · have hle : bs.length ≤ n := Nat.le_of_not_le hn
    rw [List.take_of_length_le hle, List.take_of_length_le (by
      rw [length_binaryOfBytes]
      exact Nat.mul_le_mul_left 8 hle)]

theorem drop_binaryOfBytes (n : Nat) (bs : List UInt8) :
    (binaryOfBytes bs).drop (8 * n) = binaryOfBytes (bs.drop n) := by
  have hcut : binaryOfBytes (bs.take n) ++ (binaryOfBytes bs).drop (8 * n) = binaryOfBytes bs := by
    rw [← take_binaryOfBytes, List.take_append_drop]
  have hparts : binaryOfBytes (bs.take n) ++ binaryOfBytes (bs.drop n) = binaryOfBytes bs := by
    rw [← binaryOfBytes_append, List.take_append_drop]
  exact List.append_cancel_left (hcut.trans hparts.symm)

/-- **A window of whole bytes.** -/
theorem take_drop_binaryOfBytes (n k : Nat) (bs : List UInt8) :
    ((binaryOfBytes bs).drop (8 * n)).take (8 * k) = binaryOfBytes ((bs.drop n).take k) := by
  rw [drop_binaryOfBytes, take_binaryOfBytes]

/-- **The digits of a number, byte by byte.** -/
theorem binary_of_bytes (n : Nat) : ∀ k : Nat,
    binary (8 * k) n =
      binaryOfBytes ((List.range k).map fun i => UInt8.ofNat (n >>> (8 * (k - 1 - i))))
  | 0 => rfl
  | k + 1 => by
      have hshift (i : Nat) (hi : i < k) : n >>> 8 >>> (8 * (k - 1 - i)) =
          n >>> (8 * (k + 1 - 1 - i)) := by
        have hplace : 8 * (k + 1 - 1 - i) = 8 + 8 * (k - 1 - i) := by omega
        rw [hplace, Nat.shiftRight_add]
      have hlow : binary 8 n = binaryOfBytes [UInt8.ofNat (n >>> (8 * (k + 1 - 1 - k)))] := by
        have hzero : 8 * (k + 1 - 1 - k) = 0 := by omega
        rw [hzero, Nat.shiftRight_zero, binaryOfBytes_cons, UInt8.toNat_ofNat', binary_mod]
        exact (List.append_nil _).symm
      rw [Nat.mul_succ, binary_add, binary_of_bytes (n >>> 8) k, hlow, ← binaryOfBytes_append,
        List.range_succ, List.map_append]
      refine congrArg (fun bs => binaryOfBytes (bs ++ _)) (List.map_congr_left fun i hi => ?_)
      rw [hshift i (List.mem_range.mp hi)]

/-- **Bytes are digits to the base 256.** -/
theorem ofBinary_binaryOfBytes (b : UInt8) (bs : List UInt8) :
    ofBinary (binaryOfBytes (b :: bs)) =
      b.toNat * 256 ^ bs.length + ofBinary (binaryOfBytes bs) := by
  have hpow : 2 ^ (binaryOfBytes bs).length = 256 ^ bs.length := by
    rw [length_binaryOfBytes, Nat.pow_mul]
  rw [binaryOfBytes_cons, ofBinary_append, ofBinary_binary, Nat.mod_eq_of_lt b.toNat_lt, hpow]

end CacheDirectory.Library
