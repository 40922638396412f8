/-
  File:      CacheDirectory/Library/LittleEndian.lean
  Subject:   LITTLE-ENDIAN BYTES OF A NUMBER, WRITTEN BY SHIFTING AND READ BY OR-ING.

  `littleEndian n v` is byte by byte what `(uint8)(v >> (8 * i))` for `i = 0 .. n - 1` gives;
  `ofLittleEndian` ors every byte back to its place. Reading what was written gives the number
  modulo `2 ^ (8 * n)` (`ofLittleEndian_littleEndian`), so a word of `8 * n` bits survives; and
  writing what was read gives the bytes (`littleEndian_ofLittleEndian`).
-/
import Mathlib.Data.Nat.Bitwise

namespace CacheDirectory.Library

/-- The low `n` bytes of `v`, the lowest first. -/
def littleEndian (n v : Nat) : List UInt8 :=
  (List.range n).map fun i => UInt8.ofNat (v >>> (8 * i))

/-- Or the bytes together, byte `i` shifted to bit `8 * i` (`i` counted from `at`). -/
def orBytes : Nat → List UInt8 → Nat
  | _, [] => 0
  | i, b :: bs => b.toNat <<< (8 * i) ||| orBytes (i + 1) bs

/-- The number whose little-endian bytes are given. -/
def ofLittleEndian (bs : List UInt8) : Nat := orBytes 0 bs

@[simp] theorem length_littleEndian (n v : Nat) : (littleEndian n v).length = n := by
  simp [littleEndian]

/-- Bit `j` of the or of the bytes `i .. i + n - 1` of `v`, each put back at its place. -/
theorem testBit_orBytes (v j : Nat) : ∀ n i : Nat,
    (orBytes i ((List.range' i n).map fun k => UInt8.ofNat (v >>> (8 * k)))).testBit j =
      (decide (8 * i ≤ j ∧ j < 8 * (i + n)) && v.testBit j)
  | 0, i => by
      simp [orBytes]
  | n + 1, i => by
      have ih := testBit_orBytes v j n (i + 1)
      simp only [List.range'_succ, List.map_cons, orBytes, Nat.testBit_lor, ih]
      have hbyte : ((UInt8.ofNat (v >>> (8 * i))).toNat <<< (8 * i)).testBit j =
          (decide (8 * i ≤ j ∧ j < 8 * (i + 1)) && v.testBit j) := by
        rw [Nat.testBit_shiftLeft, UInt8.toNat_ofNat', Nat.testBit_mod_two_pow,
          Nat.testBit_shiftRight]
        by_cases h : 8 * i ≤ j
        · have hj : 8 * i + (j - 8 * i) = j := by omega
          have hlt : (j - 8 * i < 8) ↔ (j < 8 * (i + 1)) := by omega
          simp [h, hj, hlt]
        · simp [h]
      rw [hbyte]
      by_cases h1 : 8 * i ≤ j ∧ j < 8 * (i + 1)
      · have h2 : 8 * i ≤ j ∧ j < 8 * (i + (n + 1)) := by omega
        simp [h1, h2]
      · have h2 : (8 * (i + 1) ≤ j ∧ j < 8 * (i + 1 + n)) ↔
            (8 * i ≤ j ∧ j < 8 * (i + (n + 1))) := by omega
        simp [h1, h2]

/-- **Reading back what was written.** -/
theorem ofLittleEndian_littleEndian (n v : Nat) :
    ofLittleEndian (littleEndian n v) = v % 2 ^ (8 * n) := by
  apply Nat.eq_of_testBit_eq
  intro j
  have h := testBit_orBytes v j n 0
  simp only [← List.range_eq_range'] at h
  unfold ofLittleEndian littleEndian
  rw [h, Nat.testBit_mod_two_pow]
  simp

/-- A number of at most `n` bytes is read back exactly. -/
theorem ofLittleEndian_of_lt {n v : Nat} (h : v < 2 ^ (8 * n)) :
    ofLittleEndian (littleEndian n v) = v := by
  rw [ofLittleEndian_littleEndian, Nat.mod_eq_of_lt h]

/-- Counting from a later place shifts. -/
theorem orBytes_add (i : Nat) : ∀ (bs : List UInt8) (k : Nat),
    orBytes (k + i) bs = orBytes k bs <<< (8 * i)
  | [], k => by simp [orBytes]
  | b :: bs, k => by
      have ih := orBytes_add i bs (k + 1)
      have hplace : k + i + 1 = k + 1 + i := by omega
      have hshift : 8 * (k + i) = 8 * k + 8 * i := by omega
      rw [orBytes, orBytes, hplace, ih, hshift, Nat.shiftLeft_add, Nat.shiftLeft_or_distrib]

/-- The lowest byte and the rest. -/
theorem ofLittleEndian_cons (b : UInt8) (bs : List UInt8) :
    ofLittleEndian (b :: bs) = b.toNat ||| ofLittleEndian bs <<< 8 := by
  have hrest := orBytes_add 1 bs 0
  rw [Nat.zero_add, Nat.mul_one] at hrest
  unfold ofLittleEndian
  rw [orBytes, hrest, Nat.mul_zero, Nat.shiftLeft_zero]

theorem ofLittleEndian_lt : ∀ bs : List UInt8, ofLittleEndian bs < 2 ^ (8 * bs.length)
  | [] => Nat.one_pos
  | b :: bs => by
      have ih := ofLittleEndian_lt bs
      have hlen : 8 * (b :: bs).length = 8 * bs.length + 8 := by
        rw [List.length_cons]
        omega
      have hbyte : b.toNat < 2 ^ (8 * bs.length + 8) :=
        Nat.lt_of_lt_of_le b.toNat_lt (Nat.pow_le_pow_right (by omega) (by omega))
      have hrest : ofLittleEndian bs <<< 8 < 2 ^ (8 * bs.length + 8) := by
        rw [Nat.shiftLeft_eq, Nat.pow_add]
        exact Nat.mul_lt_mul_of_pos_right ih (by omega)
      rw [ofLittleEndian_cons, hlen]
      exact Nat.or_lt_two_pow hbyte hrest

/-- The bytes of a number are its lowest byte and the bytes of the rest. -/
theorem littleEndian_succ (n v : Nat) :
    littleEndian (n + 1) v = UInt8.ofNat v :: littleEndian n (v >>> 8) := by
  unfold littleEndian
  rw [List.range_succ_eq_map, List.map_cons, List.map_map, Nat.mul_zero, Nat.shiftRight_zero]
  refine congrArg (UInt8.ofNat v :: ·) (List.map_congr_left fun i _ => ?_)
  have hshift : 8 * (i + 1) = 8 + 8 * i := by omega
  rw [Function.comp_apply, hshift, Nat.shiftRight_add]

/-- **Writing again what was read.** -/
theorem littleEndian_ofLittleEndian : ∀ bs : List UInt8,
    littleEndian bs.length (ofLittleEndian bs) = bs
  | [] => rfl
  | b :: bs => by
      have ih := littleEndian_ofLittleEndian bs
      have hlow : UInt8.ofNat (b.toNat ||| ofLittleEndian bs <<< 8) = b := by
        apply UInt8.toNat_inj.mp
        rw [UInt8.toNat_ofNat', Nat.or_mod_two_pow, Nat.shiftLeft_eq, Nat.mul_mod_left,
          Nat.or_zero, Nat.mod_eq_of_lt b.toNat_lt]
      have hhigh : (b.toNat ||| ofLittleEndian bs <<< 8) >>> 8 = ofLittleEndian bs := by
        rw [Nat.shiftRight_or_distrib, Nat.shiftRight_eq_zero _ _ b.toNat_lt, Nat.zero_or,
          Nat.shiftLeft_shiftRight]
      rw [ofLittleEndian_cons, List.length_cons, littleEndian_succ, hlow, hhigh, ih]

end CacheDirectory.Library
