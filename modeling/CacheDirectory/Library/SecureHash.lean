/-
  File:      CacheDirectory/Library/SecureHash.lean
  Subject:   THE SECURE HASH STANDARD'S SHA-256 (FIPS 180-4), ON BIT STRINGS.

  The function of the standard, section by section: logical functions on words of 32 bits, the
  constants as fractional parts of roots of primes, the padding with the least number of zero bits,
  the message schedule, and the compression of one block after the other.

  The standard defines its constants as real numbers, so this is not a program. What a program
  needs is proved here:

  * `rootBits_eq` -- a constant, from the two powers the root lies between;
  * `nth_of_filter` -- the first primes, from a list of them;
  * `zeroBits_eq` -- the least number of zero bits, from the congruence it solves.
-/
import CacheDirectory.Library.BitStrings
import Mathlib.Algebra.Order.Floor.Semifield
import Mathlib.Analysis.SpecialFunctions.Pow.Real
import Mathlib.Data.Nat.Nth
import Mathlib.Data.Nat.Prime.Basic

namespace CacheDirectory.Library.SecureHash

/-! ## 1. Functions (4.1.2) -/

abbrev Word := BitVec 32

def ch (x y z : Word) : Word := (x &&& y) ^^^ (~~~x &&& z)

def maj (x y z : Word) : Word := (x &&& y) ^^^ (x &&& z) ^^^ (y &&& z)

def bigSigma0 (x : Word) : Word := x.rotateRight 2 ^^^ x.rotateRight 13 ^^^ x.rotateRight 22

def bigSigma1 (x : Word) : Word := x.rotateRight 6 ^^^ x.rotateRight 11 ^^^ x.rotateRight 25

def smallSigma0 (x : Word) : Word := x.rotateRight 7 ^^^ x.rotateRight 18 ^^^ (x >>> 3)

def smallSigma1 (x : Word) : Word := x.rotateRight 17 ^^^ x.rotateRight 19 ^^^ (x >>> 10)

/-! ## 2. Constants (4.2.2, 5.3.3) -/

/-- The first thirty-two bits of the fractional part of the `k`-th root of `p`. -/
noncomputable def rootBits (k p : ℕ) : Word :=
  BitVec.ofNat 32 ⌊Int.fract ((p : ℝ) ^ ((k : ℝ)⁻¹)) * 2 ^ 32⌋₊

/-- From the cube roots of the first sixty-four primes. -/
noncomputable def roundConstant (t : ℕ) : Word := rootBits 3 (Nat.nth Nat.Prime t)

/-- From the square roots of the first eight primes. -/
noncomputable def initialWord (i : ℕ) : Word := rootBits 2 (Nat.nth Nat.Prime i)

/-! ## 3. Preprocessing (5.1.1, 5.2.1) -/

/-- A message; its length has a representation in sixty-four bits. -/
abbrev Message := { m : List Bool // m.length < 2 ^ 64 }

/-- The smallest non-negative solution of `l + 1 + k ≡ 448 mod 512`. -/
noncomputable def zeroBits (l : ℕ) : ℕ := sInf {k | (l + 1 + k) % 512 = 448}

/-- The message, a one, the zeros, and the length in sixty-four bits. -/
noncomputable def pad (m : List Bool) : List Bool :=
  m ++ (true :: List.replicate (zeroBits m.length) false) ++ binary 64 m.length

/-- Word `j` of block `i`. -/
def blockWord (padded : List Bool) (i j : ℕ) : Word :=
  BitVec.ofNat 32 (ofBinary ((padded.drop (512 * i + 32 * j)).take 32))

/-! ## 4. Hash computation (6.2.2) -/

/-- The message schedule of a block. -/
def schedule (block : ℕ → Word) (t : ℕ) : Word :=
  if t < 16 then block t
  else smallSigma1 (schedule block (t - 2)) + schedule block (t - 7) +
    smallSigma0 (schedule block (t - 15)) + schedule block (t - 16)
termination_by t
decreasing_by all_goals omega

/-- The eight working variables, or the eight words of a hash value. -/
structure Words where
  a : Word
  b : Word
  c : Word
  d : Word
  e : Word
  f : Word
  g : Word
  h : Word

/-- One round, on the schedule `w`. -/
noncomputable def round (w : ℕ → Word) (s : Words) (t : ℕ) : Words :=
  let t₁ := s.h + bigSigma1 s.e + ch s.e s.f s.g + roundConstant t + w t
  let t₂ := bigSigma0 s.a + maj s.a s.b s.c
  ⟨t₁ + t₂, s.a, s.b, s.c, s.d + t₁, s.e, s.f, s.g⟩

/-- The intermediate hash value behind a block. -/
noncomputable def hashBlock (H : Words) (block : ℕ → Word) : Words :=
  let s := (List.range 64).foldl (round (schedule block)) H
  ⟨s.a + H.a, s.b + H.b, s.c + H.c, s.d + H.d, s.e + H.e, s.f + H.f, s.g + H.g, s.h + H.h⟩

noncomputable def initialHash : Words :=
  ⟨initialWord 0, initialWord 1, initialWord 2, initialWord 3, initialWord 4, initialWord 5,
    initialWord 6, initialWord 7⟩

/-- The words one behind the other. -/
def Words.digest (H : Words) : List Bool :=
  [H.a, H.b, H.c, H.d, H.e, H.f, H.g, H.h].flatMap fun x => binary 32 x.toNat

/-- The message digest. -/
noncomputable def sha256 (m : Message) : List Bool :=
  ((List.range ((pad m.1).length / 512)).foldl
    (fun H i => hashBlock H (blockWord (pad m.1) i)) initialHash).digest

/-! ## 5. What a program needs -/

theorem schedule_lt {block : ℕ → Word} {t : ℕ} (ht : t < 16) : schedule block t = block t := by
  rw [schedule, if_pos ht]

theorem schedule_ge {block : ℕ → Word} {t : ℕ} (ht : 16 ≤ t) :
    schedule block t = smallSigma1 (schedule block (t - 2)) + schedule block (t - 7) +
      smallSigma0 (schedule block (t - 15)) + schedule block (t - 16) := by
  rw [schedule, if_neg (Nat.not_lt.mpr ht)]

/-- A root between two neighbours, thirty-two binary places further left. -/
theorem floor_root {k p r : ℕ} (hk : k ≠ 0) (hlo : r ^ k ≤ p * 2 ^ (32 * k))
    (hhi : p * 2 ^ (32 * k) < (r + 1) ^ k) : ⌊(p : ℝ) ^ ((k : ℝ)⁻¹) * 2 ^ 32⌋₊ = r := by
  have hroot : (0 : ℝ) ≤ (p : ℝ) ^ ((k : ℝ)⁻¹) := Real.rpow_nonneg p.cast_nonneg _
  have hpow : ((p : ℝ) ^ ((k : ℝ)⁻¹) * 2 ^ 32) ^ k = p * 2 ^ (32 * k) := by
    rw [mul_pow, Real.rpow_inv_natCast_pow p.cast_nonneg hk, ← pow_mul]
  have hnonneg : (0 : ℝ) ≤ (p : ℝ) ^ ((k : ℝ)⁻¹) * 2 ^ 32 := mul_nonneg hroot (by positivity)
  rw [Nat.floor_eq_iff hnonneg]
  constructor
  · refine le_of_pow_le_pow_left₀ hk hnonneg ?_
    rw [hpow]
    exact_mod_cast hlo
  · refine lt_of_pow_lt_pow_left₀ k (by positivity) ?_
    rw [hpow]
    exact_mod_cast hhi

/-- **A constant of the standard**, from the two powers its root lies between. -/
theorem rootBits_eq {k p r : ℕ} (hk : k ≠ 0) (hlo : r ^ k ≤ p * 2 ^ (32 * k))
    (hhi : p * 2 ^ (32 * k) < (r + 1) ^ k) : rootBits k p = BitVec.ofNat 32 r := by
  have hfloor := floor_root hk hlo hhi
  have hroot : (0 : ℝ) ≤ (p : ℝ) ^ ((k : ℝ)⁻¹) := Real.rpow_nonneg p.cast_nonneg _
  unfold rootBits
  generalize (p : ℝ) ^ ((k : ℝ)⁻¹) = y at hfloor hroot ⊢
  have hfract : Int.fract y * 2 ^ 32 = y * 2 ^ 32 - ((⌊y⌋₊ * 2 ^ 32 : ℕ) : ℝ) := by
    rw [Int.fract, ← natCast_floor_eq_intCast_floor hroot]
    push_cast
    ring
  have hwhole : ⌊y⌋₊ * 2 ^ 32 ≤ r := by
    rw [← hfloor]
    refine Nat.le_floor ?_
    rw [Nat.cast_mul, Nat.cast_pow, Nat.cast_ofNat]
    exact mul_le_mul_of_nonneg_right (Nat.floor_le hroot) (by positivity)
  rw [hfract, Nat.floor_sub_natCast, hfloor]
  -- whole places in front do not show in the low thirty-two
  apply BitVec.eq_of_toNat_eq
  rw [BitVec.toNat_ofNat, BitVec.toNat_ofNat]
  omega

/-! ### Primes -/

/-- The numbers below a bound that have a property are the first ones that have it. -/
theorem filter_range_eq (P : ℕ → Prop) [DecidablePred P] : ∀ n : ℕ,
    (List.range n).filter P = (List.range (Nat.count P n)).map (Nat.nth P)
  | 0 => by simp
  | n + 1 => by
      have ih := filter_range_eq P n
      rw [List.range_succ, List.filter_append, ih]
      by_cases hn : P n
      · rw [Nat.count_succ, if_pos hn, List.range_succ, List.map_append, List.map_singleton,
          Nat.nth_count hn]
        simp [hn]
      · rw [Nat.count_succ, if_neg hn]
        simp [hn]

/-- **The first numbers that have a property**, from a list of them. -/
theorem nth_of_filter {P : ℕ → Prop} [DecidablePred P] {n : ℕ} {ns : List ℕ}
    (h : (List.range n).filter P = ns) {t : ℕ} (ht : t < ns.length) :
    Nat.nth P t = ns.getD t 0 := by
  rw [filter_range_eq] at h
  subst h
  rw [List.length_map, List.length_range] at ht
  rw [List.getD_eq_getElem _ _ (by simpa using ht)]
  simp

/-- A number below 18 times 18 is prime when nothing below 18 whose square it reaches divides it. -/
def passesTrial (n : ℕ) : Bool :=
  2 ≤ n && (List.range 18).all fun m => m < 2 || n < m * m || n % m != 0

theorem prime_iff_passesTrial {n : ℕ} (hn : n < 18 * 18) : n.Prime ↔ passesTrial n = true := by
  rw [Nat.prime_def_le_sqrt]
  simp only [passesTrial, Bool.and_eq_true, decide_eq_true_eq, List.all_eq_true, List.mem_range,
    Bool.or_eq_true, bne_iff_ne, ne_eq, ← Nat.dvd_iff_mod_eq_zero, Nat.le_sqrt]
  refine and_congr_right fun _ => ?_
  constructor
  · intro h m _
    by_cases hsmall : m < 2
    · exact .inl (.inl hsmall)
    · by_cases hsquare : n < m * m
      · exact .inl (.inr hsquare)
      · exact .inr (h m (Nat.le_of_not_lt hsmall) (Nat.le_of_not_lt hsquare))
  · intro h m hm hsquare
    have hlt : m < 18 := Nat.mul_self_lt_mul_self_iff.mp (Nat.lt_of_le_of_lt hsquare hn)
    rcases h m hlt with (hsmall | hbig) | hnot
    · omega
    · omega
    · exact hnot

def firstPrimes : List ℕ :=
  [2, 3, 5, 7, 11, 13, 17, 19, 23, 29, 31, 37, 41, 43, 47, 53, 59, 61, 67, 71, 73, 79, 83, 89, 97,
    101, 103, 107, 109, 113, 127, 131, 137, 139, 149, 151, 157, 163, 167, 173, 179, 181, 191, 193,
    197, 199, 211, 223, 227, 229, 233, 239, 241, 251, 257, 263, 269, 271, 277, 281, 283, 293, 307,
    311]

/-- **The first sixty-four primes.** -/
theorem nth_prime {t : ℕ} (ht : t < 64) : Nat.nth Nat.Prime t = firstPrimes.getD t 0 := by
  refine nth_of_filter (n := 312) ?_ ht
  have htrial : (List.range 312).filter (fun n => decide n.Prime) =
      (List.range 312).filter passesTrial := by
    refine List.filter_congr fun n hn => ?_
    have hlt : n < 18 * 18 := Nat.lt_of_lt_of_le (List.mem_range.mp hn) (by decide)
    rw [decide_eq_decide.mpr (prime_iff_passesTrial hlt), Bool.decide_coe]
  rw [htrial]
  decide +kernel

/-! ### Padding -/

/-- **The least number of zero bits** is the one below 512. -/
theorem zeroBits_eq {l k : ℕ} (h : (l + 1 + k) % 512 = 448) (hk : k < 512) : zeroBits l = k := by
  have hleast : IsLeast {k | (l + 1 + k) % 512 = 448} k := by
    refine ⟨h, fun k' hk' => ?_⟩
    have hcongr : (l + 1 + k') % 512 = 448 := hk'
    omega
  exact hleast.csInf_eq

end CacheDirectory.Library.SecureHash
