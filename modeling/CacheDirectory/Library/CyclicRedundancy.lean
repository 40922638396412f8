/-
  File:      CacheDirectory/Library/CyclicRedundancy.lean
  Subject:   DIVISION OF A BIT STRING BY A POLYNOMIAL OVER GF(2), LOWEST BIT FIRST.

  The remainder is a word of `w` bits; its lowest bit is the coefficient of the highest power, and
  a message goes in at that end. One step moves the word down by a place and takes the polynomial
  off when the bit that left was set.

  * `crcStep_injective` -- nothing is lost in a step, as the polynomial sets the place that the
    move left empty;
  * `crcDivide_eq` -- up to `w` bits may all be put in at once and stepped through afterwards;
  * `crcStep_split` -- stepping through the low places, the high ones only move down (what a table
    of the low places is good for);
  * `crcDivide_burst` -- two messages that differ within `w` places only have two remainders.
-/
import Mathlib.Logic.Function.Iterate
import Mathlib.Data.BitVec
import Mathlib.Data.List.GetD

namespace CacheDirectory.Library

variable {w : Nat}

/-! ## 1. One step -/

/-- The word one place down, and the polynomial taken off when the bit that left was set. -/
def crcStep (poly c : BitVec w) : BitVec w :=
  if c.getLsbD 0 then poly ^^^ (c >>> 1) else c >>> 1

/-- Stepping over what stands above the low place only moves it down. -/
theorem crcStep_xor_shiftLeft (poly x y : BitVec w) (hy : y.getLsbD (w - 1) = false) :
    crcStep poly (x ^^^ (y <<< 1)) = crcStep poly x ^^^ y := by
  have hlow : (x ^^^ (y <<< 1)).getLsbD 0 = x.getLsbD 0 := by simp
  have hdown : (x ^^^ (y <<< 1)) >>> 1 = (x >>> 1) ^^^ y := by
    apply BitVec.eq_of_getLsbD_eq
    intro i hi
    rw [BitVec.getLsbD_ushiftRight, BitVec.getLsbD_xor, BitVec.getLsbD_shiftLeft,
      BitVec.getLsbD_xor, BitVec.getLsbD_ushiftRight, Nat.add_sub_cancel_left]
    by_cases hlast : i = w - 1
    · have hout : ¬ 1 + i < w := by omega
      rw [hlast] at hout ⊢
      simp [hout, hy]
    · have hin : 1 + i < w := by omega
      simp [hin]
  unfold crcStep
  rw [hlow, hdown]
  split
  · rw [BitVec.xor_assoc]
  · rfl

/-- **Nothing is lost in a step**: the top place tells whether the polynomial was taken off. -/
theorem crcStep_injective {poly : BitVec w} (hpoly : poly.msb = true) :
    Function.Injective (crcStep poly) := by
  have hw : 0 < w := by
    rcases Nat.eq_zero_or_pos w with rfl | h
    · rw [BitVec.of_length_zero (x := poly)] at hpoly
      cases hpoly
    · exact h
  have htop (c : BitVec w) : (crcStep poly c).getLsbD (w - 1) = c.getLsbD 0 := by
    have hempty : (c >>> 1).getLsbD (w - 1) = false := by
      rw [BitVec.getLsbD_ushiftRight]
      exact BitVec.getLsbD_of_ge c _ (by omega)
    rw [BitVec.msb_eq_getLsbD_last] at hpoly
    unfold crcStep
    cases hc : c.getLsbD 0 with
    | true => simp [hempty, hpoly]
    | false => simp [hempty]
  intro a b hab
  have hlow : a.getLsbD 0 = b.getLsbD 0 := by rw [← htop a, ← htop b, hab]
  have hrest : a >>> 1 = b >>> 1 := by
    unfold crcStep at hab
    rw [hlow] at hab
    cases hb : b.getLsbD 0 with
    | true =>
        rw [hb] at hab
        exact (BitVec.xor_right_inj _).mp hab
    | false =>
        rw [hb] at hab
        exact hab
  apply BitVec.eq_of_getLsbD_eq
  intro i _
  cases i with
  | zero => exact hlow
  | succ i =>
      have hi := congrArg (fun c : BitVec w => c.getLsbD i) hrest
      simpa [Nat.add_comm] using hi

/-- Stepping through the low places, the high ones only move down. -/
theorem crcStep_split (poly x y : BitVec w) : ∀ n : Nat,
    (∀ i, w - n ≤ i → y.getLsbD i = false) →
      (crcStep poly)^[n] (x ^^^ (y <<< n)) = (crcStep poly)^[n] x ^^^ y
  | 0, _ => by simp
  | n + 1, hy => by
      have htop : (y <<< n).getLsbD (w - 1) = false := by
        rw [BitVec.getLsbD_shiftLeft]
        have hclear : w - (n + 1) ≤ w - 1 - n → y.getLsbD (w - 1 - n) = false := hy _
        rw [hclear (by omega), Bool.and_false]
      rw [Function.iterate_succ_apply, BitVec.shiftLeft_add, crcStep_xor_shiftLeft poly x _ htop,
        crcStep_split poly (crcStep poly x) y n fun i hi => hy i (by omega),
        ← Function.iterate_succ_apply]

/-! ## 2. Messages -/

/-- A bit string as a word, its first bit the lowest. -/
def bitWord (w : Nat) (bits : List Bool) : BitVec w := (BitVec.ofBoolListLE bits).setWidth w

theorem getLsbD_bitWord (bits : List Bool) (i : Nat) :
    (bitWord w bits).getLsbD i = (decide (i < w) && bits.getD i false) := by
  unfold bitWord
  rw [BitVec.getLsbD_setWidth, BitVec.getLsbD_ofBoolListLE]

/-- The remainder when one bit of the message has gone in. -/
def crcFeed (poly c : BitVec w) (b : Bool) : BitVec w := crcStep poly (c ^^^ bitWord w [b])

/-- The remainder when the whole message has gone in. -/
def crcDivide (poly c : BitVec w) (bits : List Bool) : BitVec w := bits.foldl (crcFeed poly) c

theorem crcDivide_append (poly c : BitVec w) (bits bits' : List Bool) :
    crcDivide poly c (bits ++ bits') = crcDivide poly (crcDivide poly c bits) bits' :=
  List.foldl_append

theorem bitWord_cons (b : Bool) (bits : List Bool) :
    bitWord w (b :: bits) = bitWord w [b] ^^^ (bitWord w bits <<< 1) := by
  apply BitVec.eq_of_getLsbD_eq
  intro i hi
  rw [BitVec.getLsbD_xor, BitVec.getLsbD_shiftLeft, getLsbD_bitWord, getLsbD_bitWord,
    getLsbD_bitWord]
  cases i with
  | zero => simp
  | succ i =>
      have hin : i < w := by omega
      simp [hi, hin]

/-- **Up to `w` bits may be put in at once and stepped through afterwards.** -/
theorem crcDivide_eq (poly : BitVec w) : ∀ (bits : List Bool) (c : BitVec w), bits.length ≤ w →
    crcDivide poly c bits = (crcStep poly)^[bits.length] (c ^^^ bitWord w bits)
  | [], c, _ => by
      have hnil : bitWord w [] = 0#w := BitVec.eq_of_getLsbD_eq fun i _ => by
        simp [getLsbD_bitWord]
      rw [hnil, BitVec.xor_zero]
      rfl
  | b :: bits, c, h => by
      rw [List.length_cons] at h
      -- the last place is still free, so the rest of the word is not cut when it moves up
      have hfree : (bitWord w bits).getLsbD (w - 1) = false := by
        rw [getLsbD_bitWord, List.getD_eq_default _ _ (by omega), Bool.and_false]
      calc crcDivide poly c (b :: bits)
          = crcDivide poly (crcStep poly (c ^^^ bitWord w [b])) bits := rfl
        _ = (crcStep poly)^[bits.length]
              (crcStep poly (c ^^^ bitWord w [b]) ^^^ bitWord w bits) :=
            crcDivide_eq poly bits _ (by omega)
        _ = (crcStep poly)^[bits.length]
              (crcStep poly (c ^^^ bitWord w [b] ^^^ (bitWord w bits <<< 1))) := by
            rw [crcStep_xor_shiftLeft poly _ _ hfree]
        _ = (crcStep poly)^[(b :: bits).length] (c ^^^ bitWord w (b :: bits)) := by
            rw [bitWord_cons b bits, BitVec.xor_assoc, List.length_cons,
              Function.iterate_succ_apply]

/-! ## 3. Two messages -/

section Bursts

variable {poly : BitVec w} (hpoly : poly.msb = true)
include hpoly

/-- What two remainders differ in is not lost in what follows. -/
theorem crcDivide_injective (bits : List Bool) :
    Function.Injective fun c => crcDivide poly c bits := by
  induction bits with
  | nil => exact fun _ _ h => h
  | cons b bits ih =>
      intro c c' h
      have hfeed : crcFeed poly c b = crcFeed poly c' b := ih h
      exact (BitVec.xor_left_inj _).mp (crcStep_injective hpoly hfeed)

/-- Bit strings of up to `w` bits are told apart by their remainders. -/
theorem eq_of_crcDivide {bits bits' : List Bool} (hlen : bits.length = bits'.length)
    (hw : bits.length ≤ w) {c : BitVec w}
    (h : crcDivide poly c bits = crcDivide poly c bits') : bits = bits' := by
  rw [crcDivide_eq poly bits c hw, crcDivide_eq poly bits' c (hlen ▸ hw), ← hlen] at h
  have hwords : bitWord w bits = bitWord w bits' :=
    (BitVec.xor_right_inj _).mp ((crcStep_injective hpoly).iterate _ h)
  refine List.ext_getElem hlen fun i hi hi' => ?_
  have hin : i < w := by omega
  have hbit : (bitWord w bits).getLsbD i = (bitWord w bits').getLsbD i := by rw [hwords]
  rw [getLsbD_bitWord, getLsbD_bitWord, List.getD_eq_getElem _ _ hi,
    List.getD_eq_getElem _ _ hi', decide_eq_true hin, Bool.true_and, Bool.true_and] at hbit
  exact hbit

/-- **Two messages that differ within `w` places only have two remainders.** -/
theorem crcDivide_burst {front burst burst' tail : List Bool}
    (hlen : burst.length = burst'.length) (hw : burst.length ≤ w) (hne : burst ≠ burst')
    (c : BitVec w) :
    crcDivide poly c (front ++ (burst ++ tail)) ≠ crcDivide poly c (front ++ (burst' ++ tail)) := by
  intro h
  rw [crcDivide_append, crcDivide_append, crcDivide_append, crcDivide_append] at h
  exact hne (eq_of_crcDivide hpoly hlen hw (crcDivide_injective hpoly tail h))

end Bursts

end CacheDirectory.Library
