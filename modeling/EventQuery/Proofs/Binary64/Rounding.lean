import EventQuery.Proofs.Binary64.Range
import Mathlib.Algebra.Order.Ring.Unbundled.Rat
import Mathlib.Data.Rat.Floor
import Mathlib.Data.Rat.Lemmas
import Mathlib.Order.Interval.Set.Defs
import Mathlib.Tactic.Linarith

/-!
# EventQuery.Proofs.Binary64.Rounding

Rounding as a function of rational numbers. `approx q` is what the double nearest to `q` stands
for, and products, quotients, sums and differences of finite doubles are the exact ones rounded
(`toRat_mul`, `toRat_div`, `toRat_add`, `toRat_sub`). Rounding keeps the order (`approx_mono`), goes at most half
a step of the grid (`abs_approx_sub_le_half`) and leaves alone what a double holds exactly: integers
up to `2 ^ 53` (`approx_int`), and one less than a double between one and `2 ^ 53`
(`approx_sub_one`).
-/

namespace EventQuery
namespace Binary64

theorem rank_ofRat (q : Rat) :
    (ofRat q).rank = if q < 0 then -((nearest (q.num.natAbs * unitsPerOne) q.den).val : Int)
      else (nearest (q.num.natAbs * unitsPerOne) q.den).val := by
  by_cases h : q < 0 <;> simp [ofRat, round, rank, h]

theorem rank_ofRat_mono {q q' : Rat} (h : q ≤ q') : (ofRat q).rank ≤ (ofRat q').rank := by
  have hcross : q.num * q'.den ≤ q'.num * q.den := (Rat.le_iff q q').mp h
  rw [rank_ofRat, rank_ofRat]
  by_cases hq : q < 0
  · by_cases hq' : q' < 0
    · have hn := Rat.num_neg.mpr hq
      have hn' := Rat.num_neg.mpr hq'
      have hle : q'.num.natAbs * q.den ≤ q.num.natAbs * q'.den := by
        zify
        rw [abs_of_neg hn, abs_of_neg hn']
        linarith
      have hplace := nearest_mono (a := q'.num.natAbs * unitsPerOne)
        (c := q.num.natAbs * unitsPerOne) q'.den_pos q.den_pos (by
          have := Nat.mul_le_mul_right unitsPerOne hle
          linarith)
      rw [if_pos hq, if_pos hq']
      omega
    · rw [if_pos hq, if_neg hq']
      omega
  · have hq' : ¬q' < 0 := fun hneg => hq (lt_of_le_of_lt h hneg)
    have hn := Rat.num_nonneg.mpr (not_lt.mp hq)
    have hn' := Rat.num_nonneg.mpr (not_lt.mp hq')
    have hle : q.num.natAbs * q'.den ≤ q'.num.natAbs * q.den := by
      zify
      rwa [abs_of_nonneg hn, abs_of_nonneg hn']
    have hplace := nearest_mono (a := q.num.natAbs * unitsPerOne) (c := q'.num.natAbs * unitsPerOne)
      q.den_pos q'.den_pos (by
        have := Nat.mul_le_mul_right unitsPerOne hle
        linarith)
    rw [if_neg hq, if_neg hq']
    omega

theorem isNaN_ofRat (q : Rat) : (ofRat q).isNaN = false := rfl

/-- What the double nearest to a number stands for. -/
def approx (q : Rat) : Rat := (ofRat q).toRat

theorem approx_mono {q q' : Rat} (h : q ≤ q') (hq : |q| < limit) (hq' : |q'| < limit) :
    approx q ≤ approx q' := by
  refine toRat_le_toRat ((isFinite_ofRat_iff q).mpr hq) ((isFinite_ofRat_iff q').mpr hq') ?_
  simpa [atMost, isNaN_ofRat] using rank_ofRat_mono h

/-! ## Numbers that a double holds -/

theorem twoTo_mono {m n : Nat} (h : m ≤ n) : twoTo m ≤ twoTo n := Nat.pow_le_pow_right (by decide) h

theorem nearest_magnitude {place den : Nat} (hden : 0 < den) (hplace : place ≤ infinityPlace) :
    (nearest (magnitude place * den) den).val = place := by
  rcases Nat.eq_zero_or_pos place with rfl | hpos
  · have hnone : magnitude 0 = 0 := rfl
    have hzero : RoundsTo (magnitude 0 * den) den 0 :=
      ⟨by simp [hnone], by simp [hnone], nofun, nofun⟩
    exact nearest_eq hzero hden hplace
  · exact nearest_eq (roundsTo_magnitude hpos hden) hden hplace

theorem abs_intCast (n : Int) : |(n : Rat)| = n.natAbs := by
  rw [Nat.cast_natAbs, Int.cast_abs]

/-- A number whose magnitude is on the grid is rounded to its own place. -/
theorem nearest_of_magnitude {q : Rat} {place : Nat} (hplace : place ≤ infinityPlace)
    (h : |q| * unitsPerOne = magnitude place) :
    (nearest (q.num.natAbs * unitsPerOne) q.den).val = place := by
  have hden : (0 : Rat) < q.den := by exact_mod_cast q.den_pos
  have habs : |q| = q.num.natAbs / q.den := by
    conv_lhs => rw [← Rat.num_div_den q, abs_div, abs_of_pos hden, abs_intCast]
  have hunits : q.num.natAbs * unitsPerOne = magnitude place * q.den := by
    rw [habs, div_mul_eq_mul_div, div_eq_iff hden.ne'] at h
    exact_mod_cast h
  rw [hunits]
  exact nearest_magnitude q.den_pos hplace

theorem approx_of_magnitude {q : Rat} (place : Nat) (hplace : place < infinityPlace)
    (h : |q| * unitsPerOne = magnitude place) : approx q = q := by
  have hnearest : nearest (q.num.natAbs * unitsPerOne) q.den = ⟨place, by omega⟩ :=
    Fin.ext (nearest_of_magnitude hplace.le h)
  have hone : (0 : Rat) < unitsPerOne := by exact_mod_cast twoTo_pos 1074
  have hmagnitude : q = (units (decide (q < 0)) place : Rat) / unitsPerOne := by
    rw [eq_div_iff hone.ne', units]
    by_cases hneg : q < 0
    · rw [abs_of_neg hneg] at h
      simp only [hneg, decide_true, if_true]
      push_cast
      linarith
    · rw [abs_of_nonneg (not_lt.mp hneg)] at h
      simp only [hneg, decide_false, Bool.false_eq_true, if_false, Int.cast_natCast]
      exact h
  have hfinite : (signed (decide (q < 0)) ⟨place, by omega⟩).isFinite = true :=
    isFinite_signed.mpr hplace
  rw [approx, ofRat, round, hnearest, toRat_signed hfinite]
  exact hmagnitude.symm

theorem abs_toRat_signed {negative : Bool} {place : Fin (infinityPlace + 1)}
    (h : (signed negative place).isFinite = true) :
    |(signed negative place).toRat| * unitsPerOne = magnitude place.val := by
  have hunit : (0 : Rat) < unitsPerOne := by exact_mod_cast twoTo_pos 1074
  rw [toRat_signed h, abs_div, abs_of_pos hunit, div_mul_cancel₀ _ hunit.ne', units]
  cases negative <;> simp

theorem exists_place {x : Binary64} (hx : x.isFinite = true) :
    ∃ place, place < infinityPlace ∧ |x.toRat| * unitsPerOne = magnitude place := by
  cases x with
  | nan => cases hx
  | signed negative place => exact ⟨place.val, isFinite_signed.mp hx, abs_toRat_signed hx⟩

/-- The value of a finite double has its rank, though not its sign if it is zero. -/
theorem rank_ofRat_toRat {x : Binary64} (hx : x.isFinite = true) :
    (ofRat x.toRat).rank = x.rank := by
  cases x with
  | nan => cases hx
  | signed negative place =>
    rw [rank_ofRat, nearest_of_magnitude (Nat.le_of_lt_succ place.isLt) (abs_toRat_signed hx)]
    by_cases hzero : place.val = 0
    · simp [rank, hzero]
    · have hunit : (0 : Rat) < unitsPerOne := by exact_mod_cast twoTo_pos 1074
      have hpos : 0 < magnitude place.val := magnitude_strictMono (Nat.pos_of_ne_zero hzero)
      have hsign : (signed negative place).toRat < 0 ↔ negative = true := by
        rw [toRat_signed hx, div_lt_iff₀ hunit, zero_mul, units]
        cases negative with
        | false => simp
        | true => simpa using hpos
      simp only [rank, hsign]

theorem isFinite_cases {x : Binary64} (hx : x.isFinite = true) :
    x.isNaN = false ∧ x.isInfinite = false := by
  simpa [isFinite] using hx

theorem atMost_iff {x y : Binary64} (hx : x.isFinite = true) (hy : y.isFinite = true) :
    x.atMost y = true ↔ x.toRat ≤ y.toRat := by
  refine ⟨toRat_le_toRat hx hy, fun h => ?_⟩
  have hrank := rank_ofRat_mono h
  rw [rank_ofRat_toRat hx, rank_ofRat_toRat hy] at hrank
  simpa [atMost, (isFinite_cases hx).1, (isFinite_cases hy).1] using hrank

/-- Short multiples of a power of two are on the grid. -/
theorem exists_magnitude_eq (shift : Nat) {m : Nat} (hm : m ≤ twoTo 53) :
    ∃ place, magnitude place = m * twoTo shift := by
  induction shift generalizing m with
  | zero => exact ⟨0 * twoTo 52 + m, magnitude_block hm (.inl rfl)⟩
  | succ shift ih =>
    by_cases hfull : twoTo 52 ≤ m
    · exact ⟨(shift + 1) * twoTo 52 + m, magnitude_block hm (.inr hfull)⟩
    · have htwice : 2 * m ≤ twoTo 53 := by
        rw [twoTo_succ]
        omega
      obtain ⟨place, hplace⟩ := ih htwice
      refine ⟨place, ?_⟩
      rw [hplace, twoTo_succ]
      ring

theorem approx_of_multiple {q : Rat} (shift : Nat) {m : Nat} (hm : m ≤ twoTo 53) (hq : |q| < limit)
    (h : |q| * unitsPerOne = m * twoTo shift) : approx q = q := by
  obtain ⟨place, hplace⟩ := exists_magnitude_eq shift hm
  refine approx_of_magnitude place ?_ (by rw [h, hplace]; norm_cast)
  by_contra hlarge
  have hmono : magnitude infinityPlace ≤ magnitude place := magnitude_mono (by omega)
  have hone : (0 : Rat) < unitsPerOne := by exact_mod_cast twoTo_pos 1074
  have hgreatest : limit * unitsPerOne ≤ magnitude infinityPlace := by decide +kernel
  have hless : |q| * unitsPerOne < limit * unitsPerOne := mul_lt_mul_of_pos_right hq hone
  have hle : ((limit * unitsPerOne : Nat) : Rat) ≤ (magnitude place : Nat) := by
    exact_mod_cast hgreatest.trans hmono
  rw [hplace] at hle
  push_cast at hle
  rw [h] at hless
  linarith

theorem twoTo_lt_limit : twoTo 53 < limit := by decide +kernel

theorem cast_lt_limit {q : Rat} (h : |q| ≤ twoTo 53) : |q| < limit := by
  have hlimit : ((twoTo 53 : Nat) : Rat) < (limit : Nat) := by exact_mod_cast twoTo_lt_limit
  linarith

theorem approx_int {n : Int} (h : n.natAbs ≤ twoTo 53) : approx n = n := by
  have hlimit : |(n : Rat)| < limit := cast_lt_limit (by rw [abs_intCast]; exact_mod_cast h)
  exact approx_of_multiple 1074 h hlimit (by rw [abs_intCast]; rfl)

theorem toRat_ofInt {n : Int} (h : n.natAbs ≤ twoTo 53) : (ofInt n).toRat = n := approx_int h

theorem isFinite_ofInt {n : Int} (h : n.natAbs ≤ twoTo 53) : (ofInt n).isFinite = true := by
  rw [ofInt, isFinite_ofRat_iff]
  exact cast_lt_limit (by rw [abs_intCast]; exact_mod_cast h)

theorem approx_zero : approx 0 = 0 := by simpa using approx_int (n := 0) (Nat.zero_le _)

theorem limit_pos : |(0 : Rat)| < limit := cast_lt_limit (by rw [abs_zero]; exact Nat.cast_nonneg _)

theorem approx_nonneg {q : Rat} (hq : 0 ≤ q) (hlimit : |q| < limit) : 0 ≤ approx q := by
  rw [← approx_zero]
  exact approx_mono hq limit_pos hlimit

theorem approx_nonpos {q : Rat} (hq : q ≤ 0) (hlimit : |q| < limit) : approx q ≤ 0 := by
  rw [← approx_zero]
  exact approx_mono hq hlimit limit_pos

section Small

variable {q q' : Rat} {n : Nat}

theorem abs_lt_limit (hn : n ≤ twoTo 53) (h : q ∈ Set.Icc 0 (n : Rat)) : |q| < limit := by
  refine cast_lt_limit ?_
  rw [abs_of_nonneg h.1]
  exact h.2.trans (by exact_mod_cast hn)

theorem approx_le_approx (hn : n ≤ twoTo 53) (h : q ∈ Set.Icc 0 (n : Rat))
    (h' : q' ∈ Set.Icc 0 (n : Rat)) (hle : q ≤ q') : approx q ≤ approx q' :=
  approx_mono hle (abs_lt_limit hn h) (abs_lt_limit hn h')

/-- Rounding does not leave an interval whose ends are doubles. -/
theorem approx_mem_Icc (hn : n ≤ twoTo 53) (h : q ∈ Set.Icc 0 (n : Rat)) :
    approx q ∈ Set.Icc 0 (n : Rat) := by
  have hself : approx n = n := by exact_mod_cast approx_int (n := n) (by simpa using hn)
  refine ⟨approx_nonneg h.1 (abs_lt_limit hn h), ?_⟩
  conv_rhs => rw [← hself]
  exact approx_le_approx hn h ⟨Nat.cast_nonneg n, le_rfl⟩ h.2

end Small

/-! ## How far rounding goes -/

/-- The place of a number of a finite magnitude, with the midpoints around it. -/
theorem exists_approx_eq {q : Rat} (hq : 0 ≤ q) (hlimit : q < limit) :
    ∃ place, approx q * unitsPerOne = magnitude place ∧
      ((magnitude (place - 1) + magnitude place : Nat) : Rat) ≤ 2 * (q * unitsPerOne) ∧
      2 * (q * unitsPerOne) ≤ ((magnitude place + magnitude (place + 1) : Nat) : Rat) := by
  have hden : (0 : Rat) < q.den := by exact_mod_cast q.den_pos
  have hnum : q * unitsPerOne = ((q.num.natAbs * unitsPerOne : Nat) : Rat) / q.den := by
    have hvalue : (q.num.natAbs : Rat) = q * q.den := by
      rw [← abs_intCast, abs_of_nonneg (by exact_mod_cast Rat.num_nonneg.mpr hq),
        Rat.mul_den_eq_num]
    rw [eq_div_iff hden.ne', Nat.cast_mul, hvalue]
    ring
  have hfinite : (ofRat q).isFinite = true :=
    (isFinite_ofRat_iff q).mpr (by rwa [abs_of_nonneg hq])
  obtain ⟨place, hplace, hnearest⟩ := exists_roundsTo (q.num.natAbs * unitsPerOne) q.den_pos
  have hless := isFinite_signed.mp hfinite
  refine ⟨place, ?_, ?_, ?_⟩
  · have habs := abs_toRat_signed hfinite
    have hnonneg := approx_nonneg hq (by rwa [abs_of_nonneg hq])
    rw [show place = (nearest (q.num.natAbs * unitsPerOne) q.den).val by omega, ← habs]
    congr 1
    exact (abs_of_nonneg hnonneg).symm
  · rw [hnum, mul_div_assoc', le_div_iff₀ hden]
    exact_mod_cast hplace.low
  · rw [hnum, mul_div_assoc', div_le_iff₀ hden]
    exact_mod_cast hplace.high

/-- No magnitude of the grid is nearer to a number than what it is rounded to. -/
theorem abs_approx_sub_le {q : Rat} (hq : 0 ≤ q) (hlimit : q < limit) (other : Nat) :
    |approx q * unitsPerOne - q * unitsPerOne| ≤ |magnitude other - q * unitsPerOne| := by
  obtain ⟨place, heq, hlow, hhigh⟩ := exists_approx_eq hq hlimit
  rw [heq]
  push_cast at hlow hhigh
  rcases Nat.lt_trichotomy other place with hless | rfl | hgreater
  · have hbefore : (magnitude other : Rat) ≤ magnitude (place - 1) := by
      exact_mod_cast magnitude_mono (by omega : other ≤ place - 1)
    have hself : (magnitude other : Rat) ≤ magnitude place := by
      exact_mod_cast magnitude_mono hless.le
    calc |magnitude place - q * unitsPerOne|
        ≤ q * unitsPerOne - magnitude other := abs_le.mpr ⟨by linarith, by linarith⟩
      _ ≤ |magnitude other - q * unitsPerOne| := by rw [abs_sub_comm]; exact le_abs_self _
  · exact le_rfl
  · have hafter : (magnitude (place + 1) : Rat) ≤ magnitude other := by
      exact_mod_cast magnitude_mono (by omega : place + 1 ≤ other)
    have hself : (magnitude place : Rat) ≤ magnitude other := by
      exact_mod_cast magnitude_mono hgreater.le
    calc |magnitude place - q * unitsPerOne|
        ≤ magnitude other - q * unitsPerOne := abs_le.mpr ⟨by linarith, by linarith⟩
      _ ≤ |magnitude other - q * unitsPerOne| := le_abs_self _

/-- Where the grid has `2 ^ s` steps to one, rounding goes at most half a step. -/
theorem abs_approx_sub_le_half {q : Rat} {s : Nat} (hs : s ≤ 1074) (hq : 0 ≤ q)
    (hlarge : q * twoTo s ≤ twoTo 53) : |approx q - q| * twoTo s ≤ 1 / 2 := by
  have hscale : (1 : Rat) ≤ twoTo s := by exact_mod_cast twoTo_pos s
  have hstep : (0 : Rat) < twoTo (1074 - s) := by exact_mod_cast twoTo_pos _
  have hunits : (unitsPerOne : Rat) = twoTo s * twoTo (1074 - s) := by
    rw [unitsPerOne, ← Nat.cast_mul, ← twoTo_add, Nat.add_sub_cancel' hs]
  have hlimit : q < limit := by
    have hsmall := (le_mul_of_one_le_right hq hscale).trans hlarge
    rw [← abs_of_nonneg hq] at hsmall ⊢
    exact cast_lt_limit hsmall
  have herror (n : Nat) (hn : n ≤ twoTo 53) : |approx q - q| * twoTo s ≤ |n - q * twoTo s| := by
    obtain ⟨place, hplace⟩ := exists_magnitude_eq (1074 - s) hn
    have hnear := abs_approx_sub_le hq hlimit place
    have hleft : approx q * unitsPerOne - q * unitsPerOne
        = (approx q - q) * twoTo s * twoTo (1074 - s) := by rw [hunits]; ring
    have hright : (magnitude place : Rat) - q * unitsPerOne
        = (n - q * twoTo s) * twoTo (1074 - s) := by rw [hunits, hplace, Nat.cast_mul]; ring
    have hout {c : Rat} (hc : 0 < c) (x : Rat) : |x * c| = |x| * c := by rw [abs_mul, abs_of_pos hc]
    rw [hleft, hright, hout hstep, hout hstep, hout (zero_lt_one.trans_le hscale)] at hnear
    exact le_of_mul_le_mul_right hnear hstep
  -- the grid point below, and the one above unless the number is the last one itself
  have hbelow := Nat.floor_le (mul_nonneg hq (zero_le_one.trans hscale))
  have habove := Nat.lt_floor_add_one (q * twoTo s)
  generalize Nat.floor (q * twoTo s) = below at hbelow habove
  have hle : below ≤ twoTo 53 := by exact_mod_cast hbelow.trans hlarge
  have hdown := herror below hle
  rw [abs_of_nonpos (sub_nonpos.mpr hbelow)] at hdown
  rcases Nat.lt_or_eq_of_le hle with hlt | heq
  · have hup := herror (below + 1) hlt
    push_cast at hup
    rw [abs_of_nonneg (sub_nonneg.mpr habove.le)] at hup
    linarith
  · rw [← heq] at hlarge
    linarith

/-! ## Arithmetic -/

/-- A sign that a number can have; zero can have both. -/
def HasSign (negative : Bool) (q : Rat) : Prop := if negative then q ≤ 0 else 0 ≤ q

theorem HasSign.inv {a : Bool} {p : Rat} (h : HasSign a p) : HasSign a p⁻¹ := by
  cases a with
  | false => exact inv_nonneg.mpr h
  | true => exact inv_nonpos.mpr h

theorem HasSign.mul {a b : Bool} {p q : Rat} (hp : HasSign a p) (hq : HasSign b q) :
    HasSign (a != b) (p * q) := by
  cases a with
  | false =>
    cases b with
    | false => exact mul_nonneg hp hq
    | true => exact mul_nonpos_of_nonneg_of_nonpos hp hq
  | true =>
    cases b with
    | false => exact mul_nonpos_of_nonpos_of_nonneg hp hq
    | true => exact mul_nonneg_of_nonpos_of_nonpos hp hq

theorem HasSign.div {a b : Bool} {p q : Rat} (hp : HasSign a p) (hq : HasSign b q) :
    HasSign (a != b) (p / q) := by
  rw [div_eq_mul_inv]
  exact hp.mul hq.inv

variable {x y : Binary64}

theorem hasSign_toRat (hx : x.isFinite = true) : HasSign x.isNegative x.toRat := by
  cases x with
  | nan => cases hx
  | signed negative place =>
    rw [toRat_signed hx]
    cases negative with
    | false => exact div_nonneg (Nat.cast_nonneg _) (Nat.cast_nonneg _)
    | true =>
      refine div_nonpos_of_nonpos_of_nonneg ?_ (Nat.cast_nonneg _)
      simp [units]

/-- A number that is not zero has one sign. -/
theorem HasSign.round_eq {negative : Bool} {q : Rat} (h : HasSign negative q) (hq : q ≠ 0) :
    round negative q.num.natAbs q.den = ofRat q := by
  have hsign : negative = decide (q < 0) := by
    cases negative with
    | false => simpa [HasSign] using h
    | true => simpa using lt_of_le_of_ne h hq
  rw [hsign]
  rfl

/-- The sign of a zero does not matter for its value. -/
theorem toRat_round {negative : Bool} {q : Rat} (h : HasSign negative q) :
    (round negative q.num.natAbs q.den).toRat = approx q := by
  by_cases hzero : q = 0
  · subst hzero
    cases negative <;> decide +kernel
  · rw [h.round_eq hzero]
    rfl

theorem mul_eq_round (hx : x.isFinite = true) (hy : y.isFinite = true) :
    x.mul y = round (x.isNegative != y.isNegative) (x.toRat * y.toRat).num.natAbs
      (x.toRat * y.toRat).den := by
  obtain ⟨hnan, hinf⟩ := isFinite_cases hx
  obtain ⟨hnan', hinf'⟩ := isFinite_cases hy
  simp [mul, hnan, hinf, hnan', hinf']

theorem div_eq_round (hx : x.isFinite = true) (hy : y.isFinite = true) :
    x.div y = round (x.isNegative != y.isNegative) (x.toRat / y.toRat).num.natAbs
      (x.toRat / y.toRat).den := by
  obtain ⟨hnan, hinf⟩ := isFinite_cases hx
  obtain ⟨hnan', hinf'⟩ := isFinite_cases hy
  simp [div, hnan, hinf, hnan', hinf']

theorem toRat_mul (hx : x.isFinite = true) (hy : y.isFinite = true) :
    (x.mul y).toRat = approx (x.toRat * y.toRat) := by
  rw [mul_eq_round hx hy]
  exact toRat_round ((hasSign_toRat hx).mul (hasSign_toRat hy))

theorem toRat_div (hx : x.isFinite = true) (hy : y.isFinite = true) :
    (x.div y).toRat = approx (x.toRat / y.toRat) := by
  rw [div_eq_round hx hy]
  exact toRat_round ((hasSign_toRat hx).div (hasSign_toRat hy))

theorem isFinite_round {negative : Bool} {q : Rat} (h : |q| < limit) :
    (round negative q.num.natAbs q.den).isFinite = true := by
  have hfinite := (isFinite_ofRat_iff q).mpr h
  rw [ofRat, isFinite_round_iff q.den_pos] at hfinite
  exact (isFinite_round_iff q.den_pos).mpr hfinite

theorem isFinite_mul (hx : x.isFinite = true) (hy : y.isFinite = true)
    (h : |x.toRat * y.toRat| < limit) : (x.mul y).isFinite = true := by
  rw [mul_eq_round hx hy]
  exact isFinite_round h

theorem isFinite_div (hx : x.isFinite = true) (hy : y.isFinite = true)
    (h : |x.toRat / y.toRat| < limit) : (x.div y).isFinite = true := by
  rw [div_eq_round hx hy]
  exact isFinite_round h

theorem toRat_neg (x : Binary64) : x.neg.toRat = -x.toRat := by
  cases x with
  | nan => rfl
  | signed negative place =>
    simp only [neg, toRat]
    split
    · rfl
    · have hunits : units (!negative) place.val = -units negative place.val := by
        cases negative <;> simp [units]
      rw [Rat.mkRat_eq_div, Rat.mkRat_eq_div]
      change (units (!negative) place.val : Rat) / unitsPerOne
        = -(units negative place.val / unitsPerOne)
      rw [hunits, Int.cast_neg, neg_div]

theorem isFinite_neg : x.neg.isFinite = x.isFinite := by
  cases x <;> rfl

/-- A sum is rounded, unless it is zero. -/
theorem add_cases (hx : x.isFinite = true) (hy : y.isFinite = true) :
    x.add y = ofRat (x.toRat + y.toRat) ∨
      x.toRat + y.toRat = 0 ∧ (x.add y = zero ∨ x.add y = zero.neg) := by
  obtain ⟨hnan, hinf⟩ := isFinite_cases hx
  obtain ⟨hnan', hinf'⟩ := isFinite_cases hy
  simp only [add, hnan, hinf, hnan', hinf', Bool.false_or, Bool.false_eq_true, if_false]
  split
  · rename_i hzero
    refine .inr ⟨hzero, ?_⟩
    cases x.isNegative && y.isNegative with
    | false => exact .inl rfl
    | true => exact .inr rfl
  · exact .inl rfl

theorem toRat_add (hx : x.isFinite = true) (hy : y.isFinite = true) :
    (x.add y).toRat = approx (x.toRat + y.toRat) := by
  rcases add_cases hx hy with h | ⟨hzero, h | h⟩
  · rw [h, approx]
  · rw [h, hzero, approx_zero]
    exact toRat_of_isZero rfl
  · rw [h, hzero, approx_zero]
    exact toRat_of_isZero rfl

theorem isFinite_add (hx : x.isFinite = true) (hy : y.isFinite = true)
    (h : |x.toRat + y.toRat| < limit) : (x.add y).isFinite = true := by
  rcases add_cases hx hy with heq | ⟨_, heq | heq⟩
  · rw [heq]
    exact (isFinite_ofRat_iff _).mpr h
  · rw [heq]
    rfl
  · rw [heq]
    rfl

theorem toRat_sub (hx : x.isFinite = true) (hy : y.isFinite = true) :
    (x.sub y).toRat = approx (x.toRat - y.toRat) := by
  rw [sub, toRat_add hx (isFinite_neg.trans hy), toRat_neg, sub_eq_add_neg]

/-- One less than a double from one up to `2 ^ 53` is a double: the step of its grid is one or
less, and the difference is not longer than the double itself. -/
theorem approx_sub_one (hx : x.isFinite = true) (hone : 1 ≤ x.toRat) (hlarge : x.toRat < twoTo 53) :
    approx (x.toRat - 1) = x.toRat - 1 := by
  obtain ⟨place, _, hplace⟩ := exists_place hx
  rw [abs_of_nonneg (zero_le_one.trans hone)] at hplace
  obtain ⟨shift, m, rfl, hm, hfull⟩ := exists_block place
  rw [magnitude_block hm.le hfull] at hplace
  have hunit : (0 : Rat) < unitsPerOne := by exact_mod_cast twoTo_pos 1074
  have hshift : shift ≤ 1074 := by
    by_contra hgreat
    have hlong : twoTo 53 * unitsPerOne ≤ m * twoTo shift := by
      have h52 : twoTo 52 ≤ m := hfull.resolve_left (by omega)
      calc twoTo 53 * unitsPerOne = twoTo 52 * twoTo 1075 := by
            rw [unitsPerOne, ← twoTo_add, ← twoTo_add]
        _ ≤ m * twoTo shift := Nat.mul_le_mul h52 (twoTo_mono (by omega))
    have hless : x.toRat * unitsPerOne < twoTo 53 * unitsPerOne :=
      mul_lt_mul_of_pos_right hlarge hunit
    rw [hplace] at hless
    have : m * twoTo shift < twoTo 53 * unitsPerOne := by exact_mod_cast hless
    omega
  have hsplit : unitsPerOne = twoTo (1074 - shift) * twoTo shift := by
    rw [unitsPerOne, ← twoTo_add, Nat.sub_add_cancel hshift]
  have hle : twoTo (1074 - shift) ≤ m := by
    have : unitsPerOne ≤ m * twoTo shift := by
      have hle : (1 : Rat) * unitsPerOne ≤ x.toRat * unitsPerOne :=
        mul_le_mul_of_nonneg_right hone hunit.le
      rw [hplace, one_mul] at hle
      exact_mod_cast hle
    rw [hsplit] at this
    exact Nat.le_of_mul_le_mul_right this (twoTo_pos shift)
  have hnonneg : 0 ≤ x.toRat - 1 := sub_nonneg.mpr hone
  refine approx_of_multiple shift (m := m - twoTo (1074 - shift)) (by omega) ?_ ?_
  · refine cast_lt_limit ?_
    rw [abs_of_nonneg hnonneg]
    linarith
  · rw [abs_of_nonneg hnonneg, sub_mul, hplace, one_mul, hsplit, Nat.cast_sub hle]
    push_cast
    ring

end Binary64
end EventQuery
