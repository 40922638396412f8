/-
  File:      CacheDirectory/Library/Doubles.lean
  Subject:   THE ORDER OF DOUBLES.

  A double that is a number has a place in a linear order: its sign, then its exponent, then its
  mantissa, all three mirrored below zero; the two zeros share one place. A NaN has none. The
  three comparisons are the comparisons of places, and false where a place is missing.

  * `placeOf` -- the place of a double;
  * `lt_iff_place`, `le_iff_place`, `beq_iff_place` -- the comparisons;
  * `exactValue` -- the number a double stands for.
-/
import Mathlib.Data.Prod.Lex
import Mathlib.Algebra.Order.Ring.Int
import Mathlib.Algebra.Order.Ring.Rat

namespace CacheDirectory.Library

open Float.Model (UnpackedFloat)

/-- Sign with magnitude class, exponent, mantissa. -/
abbrev Place : Type := ℤ ×ₗ ℤ ×ₗ ℤ

def place (kind exponent mantissa : ℤ) : Place := toLex (kind, toLex (exponent, mantissa))

/-- Infinities lie outside all numbers, zero between the signs. -/
def unpackedPlace : UnpackedFloat → Option Place
  | .notANumber => none
  | .infinity .negative => some (place (-2) 0 0)
  | .finite .negative m e _ => some (place (-1) (-e) (-m))
  | .zero _ => some (place 0 0 0)
  | .finite .positive m e _ => some (place 1 e m)
  | .infinity .positive => some (place 2 0 0)

def placeOf (x : Float) : Option Place := unpackedPlace x.toModel.unpack

theorem compare_place (k e m k' e' m' : ℤ) : compare (place k e m) (place k' e' m') =
    (compare k k').then ((compare e e').then (compare m m')) := rfl

theorem compare_neg_neg (a b : ℤ) : compare (-a) (-b) = (compare a b).swap := by
  rw [← cmp_eq_compare, ← cmp_eq_compare, cmp_swap]
  exact StrictAnti.cmp_map_eq (fun _ _ h => neg_lt_neg h) a b

theorem compare_cast (m n : ℕ) : compare (m : ℤ) (n : ℤ) = compare m n := by
  rw [← cmp_eq_compare, ← cmp_eq_compare]
  exact StrictMono.cmp_map_eq Nat.strictMono_cast m n

/-- **The order of two unpacked doubles is the order of their places.** -/
theorem compare_eq_place (a b : UnpackedFloat) :
    a.compare b = (unpackedPlace a).bind fun x => (unpackedPlace b).map fun y => compare x y := by
  have hnegative (m e m' e' : ℤ) : compare (place (-1) (-e) (-m)) (place (-1) (-e') (-m')) =
      ((compare e e').then (compare m m')).swap := by
    rw [compare_place, compare_neg_neg e, compare_neg_neg m, Ordering.swap_then]
    rfl
  have hpositive (m e m' e' : ℤ) : compare (place 1 e m) (place 1 e' m') =
      (compare e e').then (compare m m') := by
    rw [compare_place]
    rfl
  rcases a with (_ | _) | _ | (_ | _) | ⟨_ | _, m, e, _⟩ <;>
    rcases b with (_ | _) | _ | (_ | _) | ⟨_ | _, m', e', _⟩
  all_goals try rfl
  · refine Eq.trans ?_ (congrArg some (hnegative m e m' e').symm)
    rw [compare_cast]
    rfl
  · refine Eq.trans ?_ (congrArg some (hpositive m e m' e').symm)
    rw [compare_cast]
    rfl

section Comparisons

variable {a b : Float}

/-- A comparison of doubles, by places. -/
theorem compare_iff (o : Ordering) : a.toModel.unpack.compare b.toModel.unpack = some o ↔
    ∃ x y, placeOf a = some x ∧ placeOf b = some y ∧ compare x y = o := by
  rw [compare_eq_place]
  simp only [Option.bind_eq_some_iff, Option.map_eq_some_iff]
  constructor
  · rintro ⟨x, hx, y, hy, ho⟩
    exact ⟨x, y, hx, hy, ho⟩
  · rintro ⟨x, y, hx, hy, ho⟩
    exact ⟨x, hx, y, hy, ho⟩

theorem lt_iff_place :
    a < b ↔ ∃ x y, placeOf a = some x ∧ placeOf b = some y ∧ x < y := by
  have h := compare_iff (a := a) (b := b) .lt
  simp only [compare_lt_iff_lt] at h
  rw [← h]
  show decide ((a.toModel.unpack.compare b.toModel.unpack == some .lt) = true) = true ↔ _
  rw [decide_eq_true_iff, beq_iff_eq]

theorem le_iff_place :
    a ≤ b ↔ ∃ x y, placeOf a = some x ∧ placeOf b = some y ∧ x ≤ y := by
  have h := compare_eq_place a.toModel.unpack b.toModel.unpack
  show decide ((a.toModel.unpack.compare b.toModel.unpack).any (·.isLE) = true) = true ↔ _
  rw [decide_eq_true_iff, Option.any_eq_true, h]
  simp only [Option.bind_eq_some_iff, Option.map_eq_some_iff]
  constructor
  · rintro ⟨o, ⟨x, hx, y, hy, rfl⟩, hle⟩
    exact ⟨x, y, hx, hy, compare_le_iff_le.mp (Ordering.isLE_iff_ne_gt.mp hle)⟩
  · rintro ⟨x, y, hx, hy, hle⟩
    exact ⟨_, ⟨x, hx, y, hy, rfl⟩, Ordering.isLE_iff_ne_gt.mpr (compare_le_iff_le.mpr hle)⟩

theorem beq_iff_place :
    (a == b) = true ↔ ∃ x, placeOf a = some x ∧ placeOf b = some x := by
  have h := compare_iff (a := a) (b := b) .eq
  simp only [compare_eq_iff_eq] at h
  show (a.toModel.unpack.compare b.toModel.unpack == some .eq) = true ↔ _
  rw [beq_iff_eq, h]
  constructor
  · rintro ⟨x, y, hx, hy, rfl⟩
    exact ⟨x, hx, hy⟩
  · rintro ⟨x, hx, hy⟩
    exact ⟨x, x, hx, hy, rfl⟩

end Comparisons

/-- The number an unpacked double stands for; zero where it stands for none. -/
def unpackedValue : UnpackedFloat → ℚ
  | .finite s m e _ => mkRat (s.apply m * 2 ^ e.toNat) (2 ^ (-e).toNat)
  | _ => 0

def exactValue (x : Float) : ℚ := unpackedValue x.toModel.unpack

end CacheDirectory.Library
