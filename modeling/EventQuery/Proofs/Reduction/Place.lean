import EventQuery.Proofs.Request.Consistent

/-!
# EventQuery.Proofs.Reduction.Place

The place of a rank in a sorted list. It is computed in doubles: the quotient of the rank and 100
is rounded, and so is its product with the length of the list, but one less than that is exact
(`place_eq`). Rounding keeps the order and the integers, so a place never leaves the list
(`place_lt`) and does not go back as the rank grows (`place_mono`); and ranks 0, 50 and 100 are at
the start, at the lower middle and at the end of every list.
-/

namespace EventQuery
namespace Percentile

open Binary64

variable {count : Nat} {r r' : Binary64}

/-- The part of a whole that a rank asks for, as it is computed in doubles. -/
def fraction (r : Binary64) : Rat := approx (r.toRat / 100)

/-- How many elements of a list a rank asks for, as it is computed in doubles. -/
def share (count : Nat) (r : Binary64) : Rat := approx (count * fraction r)

theorem toRat_div_hundred_mem (hr : r.IsPercentage) :
    r.toRat / 100 ∈ Set.Icc (0 : Rat) (1 : Nat) := by
  obtain ⟨_, hlow, hhigh⟩ := hr
  refine ⟨by positivity, ?_⟩
  rw [div_le_iff₀ (by norm_num)]
  simpa using hhigh

theorem fraction_mem (hr : r.IsPercentage) : fraction r ∈ Set.Icc (0 : Rat) (1 : Nat) :=
  approx_mem_Icc (by decide) (toRat_div_hundred_mem hr)

theorem fraction_mono (hr : r.IsPercentage) (hr' : r'.IsPercentage) (h : r.toRat ≤ r'.toRat) :
    fraction r ≤ fraction r' :=
  approx_le_approx (by decide) (toRat_div_hundred_mem hr) (toRat_div_hundred_mem hr')
    (div_le_div_of_nonneg_right h (by norm_num))

theorem mul_fraction_mem (count : Nat) (hr : r.IsPercentage) :
    count * fraction r ∈ Set.Icc (0 : Rat) count := by
  obtain ⟨hlow, hhigh⟩ := fraction_mem hr
  refine ⟨mul_nonneg (Nat.cast_nonneg count) hlow, ?_⟩
  simpa using mul_le_mul_of_nonneg_left hhigh (Nat.cast_nonneg (α := Rat) count)

/-! ## The steps to a place -/

theorem isFinite_hundred : (ofInt 100).isFinite = true := isFinite_ofInt (by decide)

theorem isFinite_quotient (hr : r.IsPercentage) : (r.div (ofInt 100)).isFinite = true := by
  refine isFinite_div hr.1 isFinite_hundred ?_
  rw [toRat_ofInt_hundred]
  exact abs_lt_limit (by decide) (toRat_div_hundred_mem hr)

theorem toRat_quotient (hr : r.IsPercentage) : (r.div (ofInt 100)).toRat = fraction r := by
  rw [toRat_div hr.1 isFinite_hundred, toRat_ofInt_hundred, fraction]

section Short

variable (hcount : count < twoTo 53)
include hcount

theorem natAbs_count_le : (count : Int).natAbs ≤ twoTo 53 := by
  simpa using hcount.le

theorem isFinite_product (hr : r.IsPercentage) :
    ((ofInt count).mul (r.div (ofInt 100))).isFinite = true := by
  have hcountInt := natAbs_count_le hcount
  refine isFinite_mul (isFinite_ofInt hcountInt) (isFinite_quotient hr) ?_
  rw [toRat_ofInt hcountInt, toRat_quotient hr]
  exact abs_lt_limit hcount.le (mul_fraction_mem count hr)

theorem toRat_product (hr : r.IsPercentage) :
    ((ofInt count).mul (r.div (ofInt 100))).toRat = share count r := by
  have hcountInt := natAbs_count_le hcount
  rw [toRat_mul (isFinite_ofInt hcountInt) (isFinite_quotient hr), toRat_ofInt hcountInt,
    toRat_quotient hr]
  rfl

theorem share_mem (hr : r.IsPercentage) : share count r ∈ Set.Icc (0 : Rat) count :=
  approx_mem_Icc hcount.le (mul_fraction_mem count hr)

theorem share_mono (hr : r.IsPercentage) (hr' : r'.IsPercentage) (h : r.toRat ≤ r'.toRat) :
    share count r ≤ share count r' :=
  approx_le_approx hcount.le (mul_fraction_mem count hr) (mul_fraction_mem count hr')
    (mul_le_mul_of_nonneg_left (fraction_mono hr hr' h) (Nat.cast_nonneg count))

/-- Of the steps to a place, two are rounded. -/
theorem place_eq (hr : r.IsPercentage) : place count r = ((share count r).ceil - 1).toNat := by
  have hone : (ofInt 1).isFinite = true := isFinite_ofInt (by decide)
  have htoRat_one : (ofInt 1).toRat = 1 := by simpa using toRat_ofInt (n := 1) (by decide)
  have hfinite := isFinite_product hcount hr
  have hshare := toRat_product hcount hr
  obtain ⟨_, hhigh⟩ := share_mem hcount hr
  have hlarge : share count r < twoTo 53 := hhigh.trans_lt (by exact_mod_cast hcount)
  have hplace : place count r = (approx (share count r - 1)).ceil.toNat := by
    rw [place, ceil, toRat_sub hfinite hone, hshare, htoRat_one]
  rw [hplace]
  by_cases hle : 1 ≤ share count r
  · have hexact : approx (share count r - 1) = share count r - 1 := by
      rw [← hshare] at hle hlarge ⊢
      exact approx_sub_one hfinite hle hlarge
    rw [hexact, Rat.ceil_sub_one]
  · -- before the first element, rounding does not matter
    have hless := (not_le.mp hle).le
    have hsmall : |share count r - 1| ≤ 1 := abs_le.mpr ⟨by linarith, by linarith⟩
    have hnegative : approx (share count r - 1) ≤ 0 :=
      approx_nonpos (by linarith) (cast_lt_limit (hsmall.trans (by exact_mod_cast twoTo_pos 53)))
    have hstart : (approx (share count r - 1)).ceil ≤ 0 :=
      Rat.ceil_le_iff.mpr (by simpa using hnegative)
    have hfirst : (share count r).ceil ≤ 1 := Rat.ceil_le_iff.mpr (by simpa using hless)
    omega

theorem ceil_share_le (hr : r.IsPercentage) : (share count r).ceil ≤ count :=
  Rat.ceil_le_iff.mpr (share_mem hcount hr).2

theorem place_lt (hr : r.IsPercentage) (hpos : 0 < count) : place count r < count := by
  have := ceil_share_le hcount hr
  rw [place_eq hcount hr]
  omega

theorem place_mono (hr : r.IsPercentage) (hr' : r'.IsPercentage) (h : r.toRat ≤ r'.toRat) :
    place count r ≤ place count r' := by
  have hceil : (share count r).ceil ≤ (share count r').ceil :=
    Rat.ceil_le_iff.mpr ((share_mono hcount hr hr' h).trans Rat.le_ceil)
  rw [place_eq hcount hr, place_eq hcount hr']
  omega

/-! ## Three ranks -/

theorem place_of_zero (hr : r.IsPercentage) (h : r.toRat = 0) : place count r = 0 := by
  have hshare : share count r = 0 := by
    rw [share, fraction, h, zero_div, approx_zero, mul_zero, approx_zero]
  rw [place_eq hcount hr, hshare]
  rfl

theorem approx_natCast : approx count = count := by
  exact_mod_cast approx_int (n := count) (by simpa using hcount.le)

theorem place_of_hundred (hr : r.IsPercentage) (h : r.toRat = 100) :
    place count r = count - 1 := by
  have hone : approx (100 / 100) = 1 := by decide +kernel
  have hceil : (count : Rat).ceil = count := by exact_mod_cast Rat.ceil_intCast count
  have hshare : share count r = count := by
    rw [share, fraction, h, hone, mul_one, approx_natCast hcount]
  rw [place_eq hcount hr, hshare, hceil]
  omega

/-- Half of a short integer is a double. -/
theorem approx_half : approx (count * (1 / 2)) = count * (1 / 2) := by
  have hnonneg : (0 : Rat) ≤ count * (1 / 2) := by positivity
  have hle : (count : Rat) * (1 / 2) ≤ count := by linarith
  refine approx_of_multiple 1073 hcount.le (abs_lt_limit hcount.le ⟨hnonneg, hle⟩) ?_
  have hunits : unitsPerOne = 2 * twoTo 1073 := twoTo_succ 1073
  rw [abs_of_nonneg hnonneg, hunits, Nat.cast_mul]
  ring

theorem place_of_fifty (hr : r.IsPercentage) (h : r.toRat = 50) :
    place count r = (count + 1) / 2 - 1 := by
  have hhalf : approx (50 / 100) = 1 / 2 := by decide +kernel
  have hceil {m : Nat} (hle : count ≤ 2 * m) (hlt : 2 * m < count + 2) :
      ((count : Rat) * (1 / 2)).ceil = m := by
    have hle : (count : Rat) ≤ 2 * m := by exact_mod_cast hle
    have hlt : (2 * m : Rat) < count + 2 := by exact_mod_cast hlt
    refine le_antisymm (Rat.ceil_le_iff.mpr ?_) (Int.le_of_sub_one_lt (Rat.lt_ceil_iff.mpr ?_))
    · push_cast
      linarith
    · push_cast
      linarith
  rw [place_eq hcount hr, share, fraction, h, hhalf, approx_half hcount,
    hceil (show count ≤ 2 * ((count + 1) / 2) by omega) (by omega)]
  omega

end Short
end Percentile
end EventQuery
