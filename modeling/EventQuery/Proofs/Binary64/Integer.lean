import EventQuery.Proofs.Binary64.Monotone
import EventQuery.Proofs.Value.Equality

/-!
# EventQuery.Proofs.Binary64.Integer

Integers as doubles. No double is nearer to a number than what it is rounded to, on either side of
zero (`abs_approx_sub_le_abs`), and an integer is rounded to a double of the same value if there is
one (`quantity_ofInt_eq_iff`). An integer written out in digits is rounded like the integer itself
(`quantity_ofDecimal`), however many digits it has.
-/

namespace EventQuery
namespace Binary64

variable {x y : Binary64} {n : Int} {q : Rat}

/-! ## Values and ranks -/

theorem quantity_eq_of_rank (hx : x.isNaN = false) (hy : y.isNaN = false) (h : x.rank = y.rank) :
    x.quantity = y.quantity := by
  have hcompare := compare?_quantity hx hy
  rw [h, cmp_self_eq_eq] at hcompare
  have hsame : x.quantity.same y.quantity = true := by
    rw [Quantity.same, hcompare]
    rfl
  exact (Quantity.same_iff.mp hsame).1

/-! ## Nearest doubles -/

theorem approx_neg (q : Rat) : approx (-q) = -approx q := by
  have hsign : HasSign (!decide (q < 0)) (-q) := by
    by_cases hq : q < 0
    · simpa [HasSign, hq] using hq.le
    · simpa [HasSign, hq] using not_lt.mp hq
  have hround := toRat_round hsign
  rw [Rat.neg_num, Int.natAbs_neg, Rat.neg_den] at hround
  have hneg : round (!decide (q < 0)) q.num.natAbs q.den = (ofRat q).neg := rfl
  rw [← hround, hneg, toRat_neg, approx]

/-- No finite double is nearer to a number than what it is rounded to. -/
theorem abs_approx_sub_le_abs (hq : |q| < limit) (hy : y.isFinite = true) :
    |approx q - q| ≤ |y.toRat - q| := by
  have hnonneg {q : Rat} {y : Binary64} (hsign : 0 ≤ q) (hq : |q| < limit)
      (hy : y.isFinite = true) : |approx q - q| ≤ |y.toRat - q| := by
    have hone : (0 : Rat) < unitsPerOne := by exact_mod_cast twoTo_pos 1074
    obtain ⟨place, -, hplace⟩ := exists_place hy
    rw [abs_of_nonneg hsign] at hq
    have hle := abs_approx_sub_le hsign hq place
    rw [← hplace, ← sub_mul, ← sub_mul, abs_mul, abs_mul] at hle
    have hunits := le_of_mul_le_mul_right hle (abs_pos.mpr hone.ne')
    calc |approx q - q| ≤ |(|y.toRat| - q)| := hunits
      _ = |(|y.toRat| - |q|)| := by rw [abs_of_nonneg hsign]
      _ ≤ |y.toRat - q| := abs_abs_sub_abs_le _ _
  rcases le_total 0 q with hsign | hsign
  · exact hnonneg hsign hq hy
  · have hle := hnonneg (q := -q) (y := y.neg) (neg_nonneg.mpr hsign) (by rwa [abs_neg])
      (isFinite_neg.trans hy)
    rwa [approx_neg, toRat_neg, ← neg_sub', ← neg_sub', abs_neg, abs_neg] at hle

/-! ## Integers -/

theorem quantity_of_finite {y : Binary64} (h : y.quantity = .finite q) :
    y.isFinite = true ∧ y.toRat = q := by
  unfold quantity at h
  split at h
  · cases h
  · split at h
    · cases h
    · rename_i hnan hinf
      cases h
      exact ⟨by simp [isFinite, hnan, hinf], rfl⟩

/-- An integer is rounded to its own value exactly if some double has that value. -/
theorem quantity_ofInt_eq_iff :
    (ofInt n).quantity = .finite n ↔ ∃ y : Binary64, y.quantity = .finite n := by
  refine ⟨fun h => ⟨_, h⟩, ?_⟩
  rintro ⟨y, hy⟩
  obtain ⟨hfinite, hvalue⟩ := quantity_of_finite hy
  rw [← hy]
  refine quantity_eq_of_rank rfl (isNaN_of_isFinite hfinite) ?_
  rw [ofInt, ← hvalue, rank_ofRat_toRat hfinite]

theorem quantity_ofInt_of_limit_le (h : limit ≤ n.natAbs) :
    (ofInt n).quantity = .infinite (decide (n < 0)) := by
  have hinf : (ofInt n).isInfinite = true := by
    refine (isFinite_or_isInfinite rfl).resolve_left fun hfinite => ?_
    have hsmall := isFinite_ofInt_iff.mp hfinite
    omega
  rw [quantity_of_isInfinite hinf]
  have hsign : (ofInt n).isNegative = decide ((n : Rat) < 0) := rfl
  rw [hsign]
  simp

/-! ## Integers in digits -/

theorem tenTo_mono {m n : Nat} (h : m ≤ n) : tenTo m ≤ tenTo n := Nat.pow_le_pow_right (by decide) h

theorem round_of_limit_le {negative : Bool} {c : Nat} (h : limit ≤ c) :
    round negative c 1 = infinity negative := by
  have hinf : ¬(round negative c 1).isFinite = true := by
    rw [isFinite_round_iff Nat.one_pos, Nat.mul_one]
    omega
  exact signed_eq_infinity fun hplace => hinf (isFinite_signed.mpr hplace)

/-- A coefficient that stands for itself is rounded as it is. -/
theorem ofDecimal_whole (negative : Bool) (c : Nat) : ofDecimal negative c 0 = round negative c 1 := by
  have hlength : 0 < (Nat.toDigits 10 c).length := Nat.length_toDigits_pos
  unfold ofDecimal
  dsimp only
  split
  · rename_i hzero
    rw [Bool.or_eq_true, decide_eq_true_eq, decide_eq_true_eq] at hzero
    rw [hzero.resolve_right (by omega)]
  · rename_i hnonzero
    rw [Bool.or_eq_true, decide_eq_true_eq, not_or] at hnonzero
    split
    · -- the leading digit alone is beyond the doubles
      have hpower : tenTo 310 ≤ tenTo ((Nat.toDigits 10 c).length - 1) := tenTo_mono (by omega)
      have hlarge := tenTo_length_le (Nat.pos_of_ne_zero hnonzero.1)
      have hlimit : limit ≤ tenTo 310 := by decide +kernel
      exact (round_of_limit_le (hlimit.trans (hpower.trans hlarge))).symm
    · have hone : tenTo (Int.toNat 0) = 1 := rfl
      have hone' : tenTo (Int.toNat (-0)) = 1 := rfl
      rw [hone, hone', Nat.mul_one]

theorem quantity_ofDecimal {negative : Bool} (h : if negative then n ≤ 0 else 0 ≤ n) :
    (ofDecimal negative n.natAbs 0).quantity = (ofInt n).quantity := by
  have hsign : HasSign negative (n : Rat) := by
    cases negative <;> simpa [HasSign] using h
  have hround := rank_round hsign
  rw [Rat.num_intCast, Rat.den_intCast] at hround
  rw [ofDecimal_whole]
  exact quantity_eq_of_rank rfl rfl hround

end Binary64
end EventQuery
