import EventQuery.Binary64.Basic
import Mathlib.Algebra.Order.Field.Basic
import Mathlib.Data.Rat.Cast.Order
import Mathlib.Order.Monotone.Basic

/-!
# EventQuery.Proofs.Binary64.Order

Places and values are in the same order: magnitudes grow with their places (`magnitude_mono`), so
finite doubles that compare by their ranks compare by what they stand for (`toRat_le_toRat`).
-/

namespace EventQuery
namespace Binary64

theorem magnitude_le_succ (p : Nat) : magnitude p ≤ magnitude (p + 1) := by
  have h52 : twoTo 52 = 4503599627370496 := rfl
  have h53 : twoTo 53 = 9007199254740992 := rfl
  unfold magnitude
  rw [h52, h53]
  split
  · split
    · omega
    · -- the step of the grid doubles here for the first time
      have hp : p + 1 = 9007199254740992 := by omega
      rw [hp]
      show p ≤ 4503599627370496 * twoTo 1
      rw [show twoTo 1 = 2 from rfl]
      omega
  · split
    · omega
    · by_cases hcarry : (p + 1) % 4503599627370496 = 0
      · have hblock : (p + 1) / 4503599627370496 - 1 = p / 4503599627370496 - 1 + 1 := by omega
        have hlast : 4503599627370496 + p % 4503599627370496 ≤ 4503599627370496 * 2 := by omega
        rw [hcarry, hblock, twoTo_succ, Nat.add_zero, ← Nat.mul_assoc]
        exact Nat.mul_le_mul_right _ hlast
      · have hblock : (p + 1) / 4503599627370496 = p / 4503599627370496 := by omega
        have hnext : (p + 1) % 4503599627370496 = p % 4503599627370496 + 1 := by omega
        rw [hblock, hnext]
        exact Nat.mul_le_mul_right _ (by omega)

theorem magnitude_mono : Monotone magnitude := monotone_nat_of_le_succ magnitude_le_succ

theorem isFinite_signed {negative : Bool} {place : Fin (infinityPlace + 1)} :
    (signed negative place).isFinite = true ↔ place.val < infinityPlace := by
  have hplace := place.isLt
  simp only [isFinite, isNaN, isInfinite]
  simp
  omega

theorem signed_eq_infinity {negative : Bool} {place : Fin (infinityPlace + 1)}
    (h : ¬place.val < infinityPlace) :
    signed negative place = infinity negative := by
  have hplace : place = ⟨infinityPlace, Nat.lt_succ_self _⟩ :=
    Fin.ext (Nat.le_antisymm (Nat.le_of_lt_succ place.isLt) (Nat.le_of_not_lt h))
  rw [hplace]
  rfl

theorem natAbs_rank (negative : Bool) (place : Fin (infinityPlace + 1)) :
    (signed negative place).rank.natAbs = place.val := by
  cases negative <;> simp [rank]

/-- What a finite double stands for, in units. -/
def units (negative : Bool) (place : Nat) : Int :=
  if negative then -(magnitude place : Int) else magnitude place

theorem toRat_signed {negative : Bool} {place : Fin (infinityPlace + 1)}
    (h : (signed negative place).isFinite = true) :
    (signed negative place).toRat = (units negative place.val : Rat) / (unitsPerOne : Rat) := by
  rw [toRat, if_neg (isFinite_signed.mp h).ne, Rat.mkRat_eq_div]
  rfl

theorem toRat_of_isZero {x : Binary64} (h : x.isZero = true) : x.toRat = 0 := by
  cases x with
  | nan => cases h
  | signed negative place =>
    have hplace : place.val = 0 := beq_iff_eq.mp h
    have hunits : units negative place.val = 0 := by
      simp [hplace, units, magnitude, twoTo_pos]
    have hfinite : place.val < infinityPlace := by
      rw [hplace]
      decide
    rw [toRat_signed (isFinite_signed.mpr hfinite), hunits, Int.cast_zero, zero_div]

theorem units_le_units {a b : Bool} {p q : Fin (infinityPlace + 1)}
    (h : (signed a p).rank ≤ (signed b q).rank) : units a p.val ≤ units b q.val := by
  cases a with
  | false =>
    cases b with
    | false =>
      have hle : p.val ≤ q.val := by simpa [rank] using h
      simpa [units] using magnitude_mono hle
    | true =>
      -- both are zero
      have hp : p.val = 0 := by simp [rank] at h; omega
      have hq : q.val = 0 := by simp [rank] at h; omega
      rw [hp, hq]
      decide
  | true =>
    cases b with
    | false =>
      show -(magnitude p.val : Int) ≤ magnitude q.val
      omega
    | true =>
      have hle : q.val ≤ p.val := by simpa [rank] using h
      simpa [units] using magnitude_mono hle

theorem toRat_le_toRat {x y : Binary64} (hx : x.isFinite = true) (hy : y.isFinite = true)
    (h : x.atMost y = true) : x.toRat ≤ y.toRat := by
  cases x with
  | nan => cases hx
  | signed a p =>
    cases y with
    | nan => cases hy
    | signed b q =>
      have hunits : units a p.val ≤ units b q.val :=
        units_le_units (by simpa [atMost, isNaN] using h)
      rw [toRat_signed hx, toRat_signed hy]
      exact div_le_div_of_nonneg_right (by exact_mod_cast hunits) (Nat.cast_nonneg _)

/-- What lies between two finite doubles is finite. -/
theorem isFinite_of_atMost {x low high : Binary64} (hlow : low.isFinite = true)
    (hhigh : high.isFinite = true) (h : low.atMost x = true) (h' : x.atMost high = true) :
    x.isFinite = true := by
  cases x with
  | nan => simp [atMost, isNaN] at h
  | signed c r =>
    cases low with
    | nan => cases hlow
    | signed a p =>
      cases high with
      | nan => cases hhigh
      | signed b q =>
        rw [isFinite_signed] at hlow hhigh ⊢
        have hfloor : (signed a p).rank ≤ (signed c r).rank := by simpa [atMost, isNaN] using h
        have hroof : (signed c r).rank ≤ (signed b q).rank := by simpa [atMost, isNaN] using h'
        have hp := natAbs_rank a p
        have hq := natAbs_rank b q
        have hr := natAbs_rank c r
        omega

theorem toRat_ofInt_zero : (ofInt 0).toRat = 0 := by decide +kernel

theorem toRat_ofInt_hundred : (ofInt 100).toRat = 100 := by decide +kernel

end Binary64
end EventQuery
