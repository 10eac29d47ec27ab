import EventQuery.Proofs.Binary64.Rounding
import EventQuery.Quantity
import Mathlib.Order.Compare

/-!
# EventQuery.Proofs.Binary64.Monotone

Order and arithmetic of doubles by their ranks. Doubles other than NaN compare as their ranks do,
infinities included (`compare?_quantity`), and rounding keeps the order of exact sums, products and
quotients: a greater term makes no smaller sum (`rank_add_mono`), and a greater factor beside one
that is not negative no smaller product (`rank_mul_mono`), whether they stay finite or not. A double
on one side of an exact quotient is not on the other side of the rounded one (`atMost_div`,
`div_atMost`).
-/

namespace EventQuery
namespace Binary64

variable {x y z : Binary64}

/-! ## Order -/

theorem isNaN_of_isFinite (h : x.isFinite = true) : x.isNaN = false := (isFinite_cases h).1

theorem toRat_lt_iff (hx : x.isFinite = true) (hy : y.isFinite = true) :
    x.toRat < y.toRat ↔ x.rank < y.rank := by
  rw [← not_le, ← not_le, ← atMost_iff hy hx, atMost, isNaN_of_isFinite hx, isNaN_of_isFinite hy]
  simp

theorem toRat_le_iff (hx : x.isFinite = true) (hy : y.isFinite = true) :
    x.toRat ≤ y.toRat ↔ x.rank ≤ y.rank := by
  rw [← not_lt, ← not_lt, toRat_lt_iff hy hx]

theorem toRat_nonneg_iff (hx : x.isFinite = true) : 0 ≤ x.toRat ↔ 0 ≤ x.rank := by
  have hzero : zero.toRat = 0 := toRat_of_isZero rfl
  have hrank : zero.rank = 0 := rfl
  rw [← hzero, ← hrank]
  exact toRat_le_iff rfl hx

theorem rank_le_of_atMost (h : x.atMost y = true) : x.rank ≤ y.rank := by
  simp only [atMost, Bool.and_eq_true, decide_eq_true_eq] at h
  exact h.2

theorem rank_of_isInfinite (h : x.isInfinite = true) :
    x.rank = if x.isNegative then -(infinityPlace : Int) else infinityPlace := by
  cases x with
  | nan => cases h
  | signed negative place =>
    have hplace : place.val = infinityPlace := by simpa [isInfinite] using h
    rw [rank, hplace, isNegative]

theorem rank_bounds_of_isFinite (h : x.isFinite = true) :
    -(infinityPlace : Int) < x.rank ∧ x.rank < infinityPlace := by
  cases x with
  | nan => cases h
  | signed negative place =>
    have hplace := isFinite_signed.mp h
    have hrank := natAbs_rank negative place
    omega

theorem rank_bounds (x : Binary64) : -(infinityPlace : Int) ≤ x.rank ∧ x.rank ≤ infinityPlace := by
  cases x with
  | nan => decide
  | signed negative place =>
    have hplace := place.isLt
    have hrank := natAbs_rank negative place
    omega

/-- A double other than NaN is finite or an infinity. -/
theorem isFinite_or_isInfinite (h : x.isNaN = false) : x.isFinite = true ∨ x.isInfinite = true := by
  cases hinf : x.isInfinite with
  | true => exact .inr rfl
  | false => exact .inl (by simp [isFinite, h, hinf])

theorem quantity_of_isFinite (h : x.isFinite = true) : x.quantity = .finite x.toRat := by
  obtain ⟨hnan, hinf⟩ := isFinite_cases h
  simp [quantity, hnan, hinf]

theorem quantity_of_isInfinite (h : x.isInfinite = true) :
    x.quantity = .infinite x.isNegative := by
  cases x with
  | nan => cases h
  | signed negative place => simp [quantity, isNaN, h]

/-- Doubles are ordered as their ranks are. -/
theorem compare?_quantity (hx : x.isNaN = false) (hy : y.isNaN = false) :
    x.quantity.compare? y.quantity = some (cmp x.rank y.rank) := by
  have hpos : 0 < infinityPlace := by decide
  have hless {m n : Int} (h : m < n) : cmp m n = .lt := (cmp_eq_lt_iff m n).mpr h
  have hmore {m n : Int} (h : n < m) : cmp m n = .gt := (cmp_eq_gt_iff m n).mpr h
  rcases isFinite_or_isInfinite hx with hfx | hix
  · have hxrank := rank_bounds_of_isFinite hfx
    rcases isFinite_or_isInfinite hy with hfy | hiy
    · rw [quantity_of_isFinite hfx, quantity_of_isFinite hfy]
      simp [Quantity.compare?, Quantity.ofRats, cmp, cmpUsing, toRat_lt_iff, hfx, hfy]
    · have hyrank := rank_of_isInfinite hiy
      rw [quantity_of_isFinite hfx, quantity_of_isInfinite hiy, Quantity.compare?]
      cases hneg : y.isNegative with
      | true => rw [hmore (by simp [hyrank, hneg]; omega)]; rfl
      | false => rw [hless (by simp [hyrank, hneg]; omega)]; rfl
  · have hxrank := rank_of_isInfinite hix
    rcases isFinite_or_isInfinite hy with hfy | hiy
    · have hyrank := rank_bounds_of_isFinite hfy
      rw [quantity_of_isInfinite hix, quantity_of_isFinite hfy, Quantity.compare?]
      cases hneg : x.isNegative with
      | true => rw [hless (by simp [hxrank, hneg]; omega)]; rfl
      | false => rw [hmore (by simp [hxrank, hneg]; omega)]; rfl
    · have hyrank := rank_of_isInfinite hiy
      rw [quantity_of_isInfinite hix, quantity_of_isInfinite hiy, hxrank, hyrank]
      cases x.isNegative <;> cases y.isNegative <;> decide

/-! ## Arithmetic -/

theorem rank_ofRat_zero : (ofRat 0).rank = 0 := by decide +kernel

theorem rank_neg (x : Binary64) : x.neg.rank = -x.rank := by
  cases x with
  | nan => rfl
  | signed negative place => cases negative <;> simp [neg, rank]

theorem isNaN_neg (x : Binary64) : x.neg.isNaN = x.isNaN := by
  cases x <;> rfl

/-- The sign of a zero does not matter for its rank. -/
theorem rank_round {negative : Bool} {q : Rat} (h : HasSign negative q) :
    (round negative q.num.natAbs q.den).rank = (ofRat q).rank := by
  by_cases hzero : q = 0
  · subst hzero
    cases negative <;> decide +kernel
  · rw [h.round_eq hzero]

theorem isNaN_mul (hx : x.isFinite = true) (hy : y.isFinite = true) : (x.mul y).isNaN = false := by
  rw [mul_eq_round hx hy]
  rfl

theorem rank_mul (hx : x.isFinite = true) (hy : y.isFinite = true) :
    (x.mul y).rank = (ofRat (x.toRat * y.toRat)).rank := by
  rw [mul_eq_round hx hy]
  exact rank_round ((hasSign_toRat hx).mul (hasSign_toRat hy))

theorem isNaN_div (hx : x.isFinite = true) (hy : y.isFinite = true) : (x.div y).isNaN = false := by
  rw [div_eq_round hx hy]
  rfl

theorem rank_div (hx : x.isFinite = true) (hy : y.isFinite = true) :
    (x.div y).rank = (ofRat (x.toRat / y.toRat)).rank := by
  rw [div_eq_round hx hy]
  exact rank_round ((hasSign_toRat hx).div (hasSign_toRat hy))

/-- A double that the exact quotient does not fall below is not above the rounded one. -/
theorem atMost_div (hx : x.isFinite = true) (hy : y.isFinite = true) (hz : z.isFinite = true)
    (hpos : 0 < z.toRat) (h : x.toRat * z.toRat ≤ y.toRat) : x.atMost (y.div z) = true := by
  have hrank := rank_ofRat_mono ((le_div_iff₀ hpos).mpr h)
  rw [rank_ofRat_toRat hx, ← rank_div hy hz] at hrank
  simpa [atMost, isNaN_of_isFinite hx, isNaN_div hy hz] using hrank

/-- A double that the exact quotient does not exceed is not below the rounded one. -/
theorem div_atMost (hx : x.isFinite = true) (hy : y.isFinite = true) (hz : z.isFinite = true)
    (hpos : 0 < z.toRat) (h : y.toRat ≤ x.toRat * z.toRat) : (y.div z).atMost x = true := by
  have hrank := rank_ofRat_mono ((div_le_iff₀ hpos).mpr h)
  rw [rank_ofRat_toRat hx, ← rank_div hy hz] at hrank
  simpa [atMost, isNaN_of_isFinite hx, isNaN_div hy hz] using hrank

/-- Of two factors beside one that is not negative, the greater makes no smaller product. -/
theorem rank_mul_mono (hx : x.isFinite = true) (hy : y.isFinite = true) (hz : z.isFinite = true)
    (hxy : x.rank ≤ y.rank) (hnonneg : 0 ≤ z.rank) : (x.mul z).rank ≤ (y.mul z).rank := by
  have hle := (toRat_le_iff hx hy).mpr hxy
  rw [rank_mul hx hz, rank_mul hy hz]
  exact rank_ofRat_mono (mul_le_mul_of_nonneg_right hle ((toRat_nonneg_iff hz).mpr hnonneg))

theorem add_of_isInfinite (hx : x.isFinite = true) (hy : y.isInfinite = true) : x.add y = y := by
  obtain ⟨hnan, hinf⟩ := isFinite_cases hx
  have hnan' : y.isNaN = false := by
    cases y with
    | nan => cases hy
    | signed negative place => rfl
  simp [add, hnan, hinf, hnan', hy]

theorem rank_add (hx : x.isFinite = true) (hy : y.isFinite = true) :
    (x.add y).rank = (ofRat (x.toRat + y.toRat)).rank := by
  rcases add_cases hx hy with h | ⟨hzero, h | h⟩
  · rw [h]
  · rw [h, hzero, rank_ofRat_zero]
    rfl
  · rw [h, hzero, rank_ofRat_zero]
    rfl

theorem isNaN_add (hx : x.isFinite = true) (hy : y.isNaN = false) : (x.add y).isNaN = false := by
  rcases isFinite_or_isInfinite hy with hfinite | hinfinite
  · rcases add_cases hx hfinite with h | ⟨_, h | h⟩ <;> rw [h] <;> rfl
  · rw [add_of_isInfinite hx hinfinite]
    exact hy

theorem rank_add_mono (hx : x.isFinite = true) (hy : y.isNaN = false) (hz : z.isNaN = false)
    (h : y.rank ≤ z.rank) : (x.add y).rank ≤ (x.add z).rank := by
  rcases isFinite_or_isInfinite hy with hfy | hiy
  · rcases isFinite_or_isInfinite hz with hfz | hiz
    · have hle := (toRat_le_iff hfy hfz).mpr h
      rw [rank_add hx hfy, rank_add hx hfz]
      exact rank_ofRat_mono (by linarith)
    · -- the greater term is no negative infinity, so its sum is above all
      have hrank := rank_of_isInfinite hiz
      have hfinite := (rank_bounds_of_isFinite hfy).1
      have hbounds := rank_bounds (x.add y)
      rw [add_of_isInfinite hx hiz]
      split at hrank <;> omega
  · have hrank := rank_of_isInfinite hiy
    have hbounds := rank_bounds (x.add z)
    rw [add_of_isInfinite hx hiy]
    rcases isFinite_or_isInfinite hz with hfz | hiz
    · have hfinite := (rank_bounds_of_isFinite hfz).2
      split at hrank <;> omega
    · rw [add_of_isInfinite hx hiz]
      exact h

end Binary64
end EventQuery
