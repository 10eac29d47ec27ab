import EventQuery.Proofs.Binary64.Nearest

/-!
# EventQuery.Proofs.Binary64.Range

How large a number may be that rounds to a finite double. The midpoint between the greatest finite
magnitude and the next one up is `limit`, and as the greatest place is odd, a tie there goes to
infinity: a rational number rounds to a finite double exactly when it is below `limit`
(`isFinite_ofRat_iff`), and an integer is read as a double exactly then (`ofInt?_eq_none_iff`).
-/

namespace EventQuery
namespace Binary64

/-- The least magnitude that rounds to infinity. -/
def limit : Nat := twoTo 1024 - twoTo 970

theorem magnitude_around_limit :
    magnitude (infinityPlace - 1) + magnitude infinityPlace = 2 * limit * unitsPerOne := by
  decide +kernel

theorem nearest_lt_infinityPlace_iff {num den : Nat} (hden : 0 < den) :
    (nearest num den).val < infinityPlace ↔
      2 * num < (magnitude (infinityPlace - 1) + magnitude infinityPlace) * den := by
  obtain ⟨place, h, hval⟩ := exists_roundsTo num hden
  have heven : infinityPlace % 2 = 0 ∧ 0 < infinityPlace := by decide
  rw [hval, min_lt_iff, or_iff_left (lt_irrefl _)]
  refine ⟨fun hplace => ?_, fun hless => ?_⟩
  · have hnext : magnitude (place + 1) ≤ magnitude infinityPlace := magnitude_mono hplace
    rcases Nat.lt_or_ge (place + 1) infinityPlace with hfar | hlast
    · have hself : magnitude place < magnitude (infinityPlace - 1) :=
        magnitude_strictMono (by omega)
      exact h.high.trans_lt (Nat.mul_lt_mul_of_pos_right (by omega) hden)
    · -- the greatest finite place is odd, and a tie does not round to it
      have heq : infinityPlace = place + 1 := Nat.le_antisymm hlast hplace
      rw [heq, Nat.add_sub_cancel]
      exact lt_of_le_of_ne h.high (h.odd_high (by omega))
  · by_contra hbeyond
    have hbefore : magnitude (infinityPlace - 1) ≤ magnitude (place - 1) :=
      magnitude_mono (by omega)
    have hself : magnitude infinityPlace ≤ magnitude place := magnitude_mono (by omega)
    have hsum := Nat.mul_le_mul_right den (Nat.add_le_add hbefore hself)
    have hlow := h.low
    omega

theorem isFinite_round_iff {negative : Bool} {num den : Nat} (hden : 0 < den) :
    (round negative num den).isFinite = true ↔ num < limit * den := by
  have hunits : 0 < unitsPerOne := twoTo_pos 1074
  rw [round, isFinite_signed, nearest_lt_infinityPlace_iff hden, magnitude_around_limit]
  have hscaled : 2 * limit * unitsPerOne * den = 2 * (limit * den) * unitsPerOne := by ring
  rw [hscaled, ← Nat.mul_assoc, Nat.mul_lt_mul_right hunits]
  omega

theorem isFinite_ofRat_iff (q : Rat) : (ofRat q).isFinite = true ↔ |q| < limit := by
  have hden : (0 : Rat) < q.den := by exact_mod_cast q.den_pos
  rw [ofRat, isFinite_round_iff q.den_pos]
  conv_rhs => rw [← Rat.num_div_den q, abs_div, abs_of_pos hden, div_lt_iff₀ hden]
  rw [← Int.cast_abs, Int.abs_eq_natAbs]
  exact_mod_cast Iff.rfl

theorem isFinite_ofInt_iff {n : Int} : (ofInt n).isFinite = true ↔ n.natAbs < limit := by
  rw [ofInt, isFinite_ofRat_iff, ← Int.cast_abs, Int.abs_eq_natAbs]
  exact_mod_cast Iff.rfl

theorem ofInt?_eq_some {n : Int} (h : n.natAbs < limit) : ofInt? n = some (ofInt n) := by
  unfold ofInt?
  exact if_pos (isFinite_ofInt_iff.mpr h)

theorem ofInt?_eq_none_iff {n : Int} : ofInt? n = none ↔ limit ≤ n.natAbs := by
  refine ⟨fun h => ?_, fun h => if_neg ?_⟩
  · by_contra hsmall
    rw [ofInt?_eq_some (by omega)] at h
    cases h
  · rw [isFinite_ofInt_iff]
    omega

end Binary64
end EventQuery
