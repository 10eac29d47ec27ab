import EventQuery.Binary64.Reader
import EventQuery.Proofs.Binary64.Order
import Mathlib.Tactic.Linarith
import Mathlib.Tactic.Ring

/-!
# EventQuery.Proofs.Binary64.Nearest

Which numbers round to a place. `RoundsTo num den p`: in units, `num / den` lies between the
midpoints to the neighbours of the place `p`, and on one of them only if `p` is even. Every fraction
rounds to a place, to which `nearest` takes it (`exists_roundsTo`), and to one only
(`RoundsTo.unique`); greater fractions do not round to smaller places (`RoundsTo.mono`). A decimal
that stands for such a fraction is read as the double there (`ofDecimal_eq`).
-/

namespace EventQuery
namespace Binary64

/-! ## Blocks of the grid -/

theorem twoTo_add (m n : Nat) : twoTo (m + n) = twoTo m * twoTo n := Nat.pow_add 2 m n

theorem tenTo_add (m n : Nat) : tenTo (m + n) = tenTo m * tenTo n := Nat.pow_add 10 m n

theorem magnitude_block {s m : Nat} (hm : m ≤ twoTo 53) (hs : s = 0 ∨ twoTo 52 ≤ m) :
    magnitude (s * twoTo 52 + m) = m * twoTo s := by
  have h52 : twoTo 52 = 4503599627370496 := rfl
  have h53 : twoTo 53 = 9007199254740992 := rfl
  unfold magnitude
  rw [h52] at hs ⊢
  rw [h53] at hm ⊢
  split
  · have hzero : s = 0 := by omega
    subst hzero
    rw [show twoTo 0 = 1 from rfl]
    omega
  · by_cases hlast : m = 9007199254740992
    · -- the end of a block is the start of the next
      have hrem : (s * 4503599627370496 + m) % 4503599627370496 = 0 := by omega
      have hblock : (s * 4503599627370496 + m) / 4503599627370496 - 1 = s + 1 := by omega
      rw [hrem, hblock, twoTo_succ, hlast]
      omega
    · have hrem : 4503599627370496 + (s * 4503599627370496 + m) % 4503599627370496 = m := by omega
      have hblock : (s * 4503599627370496 + m) / 4503599627370496 - 1 = s := by omega
      rw [hrem, hblock]

theorem exists_block (p : Nat) :
    ∃ s m, p = s * twoTo 52 + m ∧ m < twoTo 53 ∧ (s = 0 ∨ twoTo 52 ≤ m) := by
  have h52 : twoTo 52 = 4503599627370496 := rfl
  have h53 : twoTo 53 = 9007199254740992 := rfl
  rw [h52, h53]
  by_cases hp : p < 9007199254740992
  · exact ⟨0, p, by omega, hp, .inl rfl⟩
  · exact ⟨p / 4503599627370496 - 1, 4503599627370496 + p % 4503599627370496, by omega, by omega,
      .inr (by omega)⟩

theorem magnitude_block_succ {s m : Nat} (hm : m < twoTo 53) (hs : s = 0 ∨ twoTo 52 ≤ m) :
    magnitude (s * twoTo 52 + m + 1) = magnitude (s * twoTo 52 + m) + twoTo s := by
  have hnext : s = 0 ∨ twoTo 52 ≤ m + 1 := by omega
  rw [Nat.add_assoc, magnitude_block hm hnext, magnitude_block hm.le hs, Nat.succ_mul]

theorem magnitude_strictMono : StrictMono magnitude := by
  refine strictMono_nat_of_lt_succ fun p => ?_
  obtain ⟨s, m, rfl, hm, hs⟩ := exists_block p
  rw [magnitude_block_succ hm hs]
  have hstep := twoTo_pos s
  omega

theorem self_le_magnitude (p : Nat) : p ≤ magnitude p := magnitude_strictMono.le_apply

/-- The place below is the last one that is not above, and the step there leads to the next. -/
theorem placeBelow_spec (units : Nat) :
    magnitude (placeBelow units).1 ≤ units ∧ units < magnitude ((placeBelow units).1 + 1) ∧
      magnitude ((placeBelow units).1 + 1)
        = magnitude (placeBelow units).1 + (placeBelow units).2 := by
  obtain ⟨s, hs⟩ : ∃ s, s = units.log2 - 52 := ⟨_, rfl⟩
  have hpos := twoTo_pos s
  have hm : units / twoTo s < twoTo 53 := by
    rw [Nat.div_lt_iff_lt_mul hpos, ← twoTo_add]
    refine Nat.lt_of_lt_of_le Nat.lt_log2_self ?_
    exact Nat.pow_le_pow_right (by decide) (by omega)
  have hfull : s = 0 ∨ twoTo 52 ≤ units / twoTo s := by
    by_cases hzero : s = 0
    · exact .inl hzero
    · have hunits : units ≠ 0 := by
        rintro rfl
        exact hzero (by rw [hs]; rfl)
      rw [Nat.le_div_iff_mul_le hpos, ← twoTo_add]
      refine .inr (Nat.le_trans ?_ (Nat.log2_self_le hunits))
      exact Nat.pow_le_pow_right (by decide) (by omega)
  have hbelow : placeBelow units = (s * twoTo 52 + units / twoTo s, twoTo s) := by
    rw [hs]
    rfl
  rw [hbelow]
  dsimp only
  have hsucc := magnitude_block_succ hm hfull
  have hmag := magnitude_block hm.le hfull
  have hdiv : units / twoTo s * twoTo s + units % twoTo s = units := Nat.div_add_mod' units _
  have hrem := Nat.mod_lt units hpos
  exact ⟨by omega, by omega, hsucc⟩

/-! ## Rounding -/

structure RoundsTo (num den place : Nat) : Prop where
  low : (magnitude (place - 1) + magnitude place) * den ≤ 2 * num
  high : 2 * num ≤ (magnitude place + magnitude (place + 1)) * den
  odd_low : place % 2 = 1 → (magnitude (place - 1) + magnitude place) * den ≠ 2 * num
  odd_high : place % 2 = 1 → 2 * num ≠ (magnitude place + magnitude (place + 1)) * den

theorem RoundsTo.scaled {num den place k : Nat} (hk : 0 < k) :
    RoundsTo (num * k) (den * k) place ↔ RoundsTo num den place := by
  have hle : ∀ a, a * (den * k) ≤ 2 * (num * k) ↔ a * den ≤ 2 * num := by
    intro a
    rw [← Nat.mul_assoc, ← Nat.mul_assoc, Nat.mul_le_mul_right_iff hk]
  have hge : ∀ a, 2 * (num * k) ≤ a * (den * k) ↔ 2 * num ≤ a * den := by
    intro a
    rw [← Nat.mul_assoc, ← Nat.mul_assoc, Nat.mul_le_mul_right_iff hk]
  have heq : ∀ a, a * (den * k) = 2 * (num * k) ↔ a * den = 2 * num := by
    intro a
    rw [← Nat.mul_assoc, ← Nat.mul_assoc, Nat.mul_right_cancel_iff hk]
  constructor
  · rintro ⟨hlow, hhigh, hoddlow, hoddhigh⟩
    exact ⟨(hle _).mp hlow, (hge _).mp hhigh, fun h => mt (heq _).mpr (hoddlow h),
      fun h e => hoddhigh h ((heq _).mpr e.symm).symm⟩
  · rintro ⟨hlow, hhigh, hoddlow, hoddhigh⟩
    exact ⟨(hle _).mpr hlow, (hge _).mpr hhigh, fun h => mt (heq _).mp (hoddlow h),
      fun h e => hoddhigh h ((heq _).mp e.symm).symm⟩

theorem roundsTo_magnitude {place den : Nat} (hplace : 0 < place) (hden : 0 < den) :
    RoundsTo (magnitude place * den) den place := by
  have hbefore : magnitude (place - 1) < magnitude place := magnitude_strictMono (by omega)
  have hafter : magnitude place < magnitude (place + 1) := magnitude_strictMono (by omega)
  have hlow : (magnitude (place - 1) + magnitude place) * den < 2 * (magnitude place * den) := by
    rw [← Nat.mul_assoc]
    exact Nat.mul_lt_mul_of_pos_right (by omega) hden
  have hhigh : 2 * (magnitude place * den) < (magnitude place + magnitude (place + 1)) * den := by
    rw [← Nat.mul_assoc]
    exact Nat.mul_lt_mul_of_pos_right (by omega) hden
  exact ⟨hlow.le, hhigh.le, fun _ => hlow.ne, fun _ => hhigh.ne⟩

/-- A fraction above a place and at most halfway to the next rounds to the place. -/
theorem roundsTo_below {num den below : Nat} (hden : 0 < den) (hle : magnitude below * den ≤ num)
    (hmid : 2 * num ≤ (magnitude below + magnitude (below + 1)) * den)
    (hodd : below % 2 = 1 → 2 * num ≠ (magnitude below + magnitude (below + 1)) * den) :
    RoundsTo num den below := by
  refine ⟨?_, hmid, fun h => ?_, hodd⟩
  · have := Nat.mul_le_mul_right den (magnitude_mono (Nat.sub_le below 1))
    rw [Nat.add_mul]
    omega
  · -- an odd place has another one before it
    have hbefore : magnitude (below - 1) < magnitude below := magnitude_strictMono (by omega)
    have := Nat.mul_lt_mul_of_pos_right hbefore hden
    rw [Nat.add_mul]
    omega

/-- A fraction below a place and at least halfway to it rounds to the place. -/
theorem roundsTo_above {num den below : Nat} (hlt : num < magnitude (below + 1) * den)
    (hmid : (magnitude below + magnitude (below + 1)) * den ≤ 2 * num)
    (hodd : (below + 1) % 2 = 1 → (magnitude below + magnitude (below + 1)) * den ≠ 2 * num) :
    RoundsTo num den (below + 1) := by
  have hafter := Nat.mul_le_mul_right den (magnitude_mono (show below + 1 ≤ below + 1 + 1 by omega))
  have hhigh : 2 * num < (magnitude (below + 1) + magnitude (below + 1 + 1)) * den := by
    rw [Nat.add_mul]
    omega
  exact ⟨hmid, hhigh.le, hodd, fun _ => hhigh.ne⟩

theorem exists_roundsTo (num : Nat) {den : Nat} (hden : 0 < den) :
    ∃ place, RoundsTo num den place ∧ (nearest num den).val = min place infinityPlace := by
  obtain ⟨hle, hlt, hstep⟩ := placeBelow_spec (num / den)
  rw [Nat.le_div_iff_mul_le hden] at hle
  rw [Nat.div_lt_iff_lt_mul hden] at hlt
  unfold nearest
  generalize placeBelow (num / den) = found at hle hlt hstep
  obtain ⟨below, step⟩ := found
  dsimp only at hle hlt hstep ⊢
  -- the excess against the step is the fraction against the midpoint
  have hmid : (magnitude below + magnitude (below + 1)) * den
      = 2 * (magnitude below * den) + step * den := by
    rw [hstep]
    ring
  have hdown := roundsTo_below hden hle
  have hup := roundsTo_above hlt
  rw [hmid] at hdown hup
  split
  · exact ⟨below, hdown (by omega) (by omega), rfl⟩
  · split
    · exact ⟨below + 1, hup (by omega) (by omega), rfl⟩
    · rcases Nat.mod_two_eq_zero_or_one below with heven | hodd
      · rw [heven]
        exact ⟨below, hdown (by omega) (by omega), rfl⟩
      · rw [hodd]
        exact ⟨below + 1, hup (by omega) (by omega), rfl⟩

/-- A greater fraction does not round to a smaller place: between neighbouring places only a tie
could, and it goes to the even one of them. -/
theorem RoundsTo.mono {a b c d p q : Nat} (h : RoundsTo a b p) (h' : RoundsTo c d q) (hb : 0 < b)
    (hd : 0 < d) (hle : a * d ≤ c * b) : p ≤ q := by
  by_contra hlt
  have hlow : (magnitude (p - 1) + magnitude p) * (b * d) ≤ 2 * (a * d) := by
    have := Nat.mul_le_mul_right d h.low
    linarith
  have hhigh : 2 * (c * b) ≤ (magnitude q + magnitude (q + 1)) * (b * d) := by
    have := Nat.mul_le_mul_right b h'.high
    linarith
  have hself : magnitude q ≤ magnitude (p - 1) := magnitude_mono (by omega)
  have hnext : magnitude (q + 1) ≤ magnitude p := magnitude_mono (by omega)
  have hsum : (magnitude q + magnitude (q + 1)) * (b * d)
      ≤ (magnitude (p - 1) + magnitude p) * (b * d) := Nat.mul_le_mul_right _ (by omega)
  have hbd : 0 < b * d := Nat.mul_pos hb hd
  have hsame : magnitude q + magnitude (q + 1) = magnitude (p - 1) + magnitude p :=
    Nat.eq_of_mul_eq_mul_right hbd (by omega)
  have hp : p = q + 1 := by
    have : magnitude (q + 1) = magnitude p := by omega
    exact (magnitude_strictMono.injective this).symm
  rcases Nat.mod_two_eq_zero_or_one q with heven | hodd
  · refine h.odd_low (by omega) (Nat.eq_of_mul_eq_mul_right hd ?_)
    linarith
  · refine h'.odd_high hodd (Nat.eq_of_mul_eq_mul_right hb ?_)
    linarith

theorem nearest_mono {a b c d : Nat} (hb : 0 < b) (hd : 0 < d) (hle : a * d ≤ c * b) :
    (nearest a b).val ≤ (nearest c d).val := by
  obtain ⟨p, hp, hpval⟩ := exists_roundsTo a hb
  obtain ⟨q, hq, hqval⟩ := exists_roundsTo c hd
  have := hp.mono hq hb hd hle
  omega

theorem RoundsTo.unique {num den p q : Nat} (h : RoundsTo num den p) (h' : RoundsTo num den q)
    (hden : 0 < den) : p = q :=
  Nat.le_antisymm (h.mono h' hden hden le_rfl) (h'.mono h hden hden le_rfl)

theorem nearest_eq {num den place : Nat} (h : RoundsTo num den place) (hden : 0 < den)
    (hplace : place ≤ infinityPlace) : (nearest num den).val = place := by
  obtain ⟨found, hfound, hval⟩ := exists_roundsTo num hden
  rw [hval, hfound.unique h hden]
  exact Nat.min_eq_left hplace

/-! ## Decimals -/

/-- The decimal `coefficient * 10 ^ exponent` rounds to a place. -/
def ReadsAs (coefficient : Nat) (exponent : Int) (place : Nat) : Prop :=
  RoundsTo (coefficient * tenTo exponent.toNat * unitsPerOne) (tenTo (-exponent).toNat) place

/-- Zeros at the end of a coefficient may go into the exponent. -/
theorem readsAs_mul_tenTo {coefficient zeros place : Nat} {exponent : Int} :
    ReadsAs (coefficient * tenTo zeros) exponent place ↔
      ReadsAs coefficient (exponent + zeros) place := by
  obtain ⟨k, hden, hnum⟩ : ∃ k, (-exponent).toNat = (-(exponent + zeros)).toNat + k ∧
      zeros + exponent.toNat = (exponent + zeros).toNat + k :=
    ⟨(-exponent).toNat - (-(exponent + zeros)).toNat, by omega, by omega⟩
  have hscaled : coefficient * tenTo zeros * tenTo exponent.toNat * unitsPerOne
      = coefficient * tenTo (exponent + zeros).toNat * unitsPerOne * tenTo k := by
    rw [Nat.mul_assoc coefficient, ← tenTo_add, hnum, tenTo_add]
    ring
  unfold ReadsAs
  rw [hscaled, hden, tenTo_add]
  exact RoundsTo.scaled (tenTo_pos k)

theorem lt_tenTo_length (n : Nat) : n < tenTo (Nat.toDigits 10 n).length :=
  (Nat.length_toDigits_le_iff (by decide) Nat.length_toDigits_pos).mp (Nat.le_refl _)

theorem tenTo_length_le {n : Nat} (h : 0 < n) : tenTo ((Nat.toDigits 10 n).length - 1) ≤ n := by
  by_cases hone : (Nat.toDigits 10 n).length = 1
  · rw [hone]
    exact h
  · have hlength : 0 < (Nat.toDigits 10 n).length := Nat.length_toDigits_pos
    by_contra hlt
    have hle := (Nat.length_toDigits_le_iff (b := 10) (by decide) (by omega)).mpr
      (Nat.lt_of_not_le hlt)
    omega

/-- No finite double is as small as what counts as zero. -/
theorem ReadsAs.leading_ge {c place : Nat} {e : Int} (h : ReadsAs c e place) (hplace : 0 < place) :
    -330 ≤ e + (Nat.toDigits 10 c).length := by
  by_contra hlt
  have hlength : 0 < (Nat.toDigits 10 c).length := Nat.length_toDigits_pos
  obtain ⟨k, hk⟩ : ∃ k, (-e).toNat = 331 + k + (Nat.toDigits 10 c).length :=
    ⟨(-e).toNat - 331 - (Nat.toDigits 10 c).length, by omega⟩
  have hlow := h.low
  rw [show e.toNat = 0 by omega, show tenTo 0 = 1 from rfl, Nat.mul_one, hk, tenTo_add, tenTo_add]
    at hlow
  have hmag : 1 ≤ magnitude (place - 1) + magnitude place := by
    have := self_le_magnitude place
    omega
  have hc := lt_tenTo_length c
  generalize tenTo (Nat.toDigits 10 c).length = len at hc hlow
  have htiny : 2 * unitsPerOne < tenTo 331 := by decide +kernel
  have hk := tenTo_pos k
  have hchain : tenTo 331 * len ≤ tenTo 331 * len * (tenTo k *
      (magnitude (place - 1) + magnitude place)) :=
    Nat.le_mul_of_pos_right _ (Nat.mul_pos hk hmag)
  have hsmall : 2 * (c * unitsPerOne) < tenTo 331 * len := by
    calc 2 * (c * unitsPerOne) = 2 * unitsPerOne * c := by ring
      _ < tenTo 331 * len := Nat.mul_lt_mul_of_le_of_lt htiny.le hc (by omega)
  have hsame : tenTo 331 * len * (tenTo k * (magnitude (place - 1) + magnitude place))
      = (magnitude (place - 1) + magnitude place) * (tenTo 331 * tenTo k * len) := by ring
  omega

/-- No finite double is as large as what counts as infinite. -/
theorem ReadsAs.leading_le {c place : Nat} {e : Int} (h : ReadsAs c e place) (hc : 0 < c)
    (hplace : place < infinityPlace) : e + (Nat.toDigits 10 c).length ≤ 310 := by
  by_contra hlt
  have hlength : 0 < (Nat.toDigits 10 c).length := Nat.length_toDigits_pos
  obtain ⟨k, hk⟩ : ∃ k, (Nat.toDigits 10 c).length - 1 + e.toNat = 310 + k + (-e).toNat :=
    ⟨(Nat.toDigits 10 c).length - 1 + e.toNat - 310 - (-e).toNat, by omega⟩
  have hhigh := h.high
  have hmag : magnitude place + magnitude (place + 1) ≤ 2 * magnitude infinityPlace := by
    have hself : magnitude place ≤ magnitude infinityPlace := magnitude_mono hplace.le
    have hnext : magnitude (place + 1) ≤ magnitude infinityPlace := magnitude_mono hplace
    omega
  have hhuge : magnitude infinityPlace < tenTo 310 * unitsPerOne := by decide +kernel
  -- the leading digit alone is beyond the magnitude of infinity
  have hlarge : tenTo 310 * tenTo (-e).toNat ≤ c * tenTo e.toNat := by
    calc tenTo 310 * tenTo (-e).toNat
        ≤ tenTo 310 * tenTo (-e).toNat * tenTo k := Nat.le_mul_of_pos_right _ (tenTo_pos k)
      _ = tenTo ((Nat.toDigits 10 c).length - 1) * tenTo e.toNat := by
        rw [← tenTo_add _ e.toNat, hk, tenTo_add, tenTo_add]
        ring
      _ ≤ c * tenTo e.toNat := Nat.mul_le_mul_right _ (tenTo_length_le hc)
  have hden := tenTo_pos (-e).toNat
  generalize tenTo (-e).toNat = den at hhigh hlarge hden
  have hupper : 2 * (c * tenTo e.toNat * unitsPerOne) ≤ 2 * magnitude infinityPlace * den :=
    hhigh.trans (Nat.mul_le_mul_right _ hmag)
  have hlower : tenTo 310 * den * unitsPerOne ≤ c * tenTo e.toNat * unitsPerOne :=
    Nat.mul_le_mul_right _ hlarge
  have hbetween : magnitude infinityPlace * den < tenTo 310 * unitsPerOne * den :=
    Nat.mul_lt_mul_of_pos_right hhuge hden
  rw [Nat.mul_assoc 2] at hupper
  rw [Nat.mul_right_comm] at hlower
  omega

theorem ReadsAs.pos {c place : Nat} {e : Int} (h : ReadsAs c e place) (hplace : 0 < place) :
    0 < c := by
  rcases Nat.eq_zero_or_pos c with rfl | hc
  · have hlow := h.low
    have hmag := self_le_magnitude place
    rw [Nat.zero_mul, Nat.zero_mul, Nat.mul_zero, Nat.le_zero, Nat.mul_eq_zero] at hlow
    have hden := tenTo_pos (-e).toNat
    omega
  · exact hc

/-- A decimal that rounds to a place is read as the double there. -/
theorem ofDecimal_eq {c : Nat} {e : Int} {place : Fin (infinityPlace + 1)}
    (h : ReadsAs c e place.val) (hpos : 0 < place.val) (hfin : place.val < infinityPlace)
    (negative : Bool) : ofDecimal negative c e = .signed negative place := by
  have hc := h.pos hpos
  have hge := h.leading_ge hpos
  have hle := h.leading_le hc hfin
  unfold ofDecimal
  dsimp only
  rw [if_neg (by simp; omega), if_neg (by omega)]
  exact congrArg _ (Fin.ext (nearest_eq h (tenTo_pos _) hfin.le))

theorem ofDecimal_zero (negative : Bool) :
    ofDecimal negative 0 (-1) = .signed negative ⟨0, Nat.succ_pos _⟩ := by
  cases negative with
  | false => decide +kernel
  | true => decide +kernel

end Binary64
end EventQuery
