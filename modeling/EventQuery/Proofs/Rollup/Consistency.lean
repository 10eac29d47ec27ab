import EventQuery.Proofs.Rollup.Week
import Mathlib.Algebra.Order.BigOperators.Group.List

/-!
# EventQuery.Proofs.Rollup.Consistency

The summary of a week against itself. Whole numbers that add up to at most `2 ^ 53` are added
without rounding (`isInt_total`), so the average of a week of sound tallies is the exact quotient of
two sums, rounded once. The exact quotient is between the extremes of the days (`sums_between`), and
rounding does not carry it past a double: `week_consistent`.
-/

namespace EventQuery

namespace Binary64

/-- A finite double that stands for a whole number. -/
structure IsInt (x : Binary64) (n : Int) : Prop where
  isFinite : x.isFinite = true
  toRat : x.toRat = n

variable {x y : Binary64} {m n : Int} {xs : List Binary64} {ns : List Int}

theorem isInt_zero : zero.IsInt 0 := ⟨rfl, by decide +kernel⟩

theorem isInt_ofInt (h : n.natAbs ≤ twoTo 53) : (ofInt n).IsInt n :=
  ⟨isFinite_ofInt h, toRat_ofInt h⟩

theorem IsInt.eq_zero (h : x.IsInt n) (hzero : x.isZero = true) : n = 0 := by
  have hvalue := h.toRat
  rw [toRat_of_isZero hzero] at hvalue
  exact_mod_cast hvalue.symm

theorem IsInt.add (hx : x.IsInt m) (hy : y.IsInt n) (h : (m + n).natAbs ≤ twoTo 53) :
    (x.add y).IsInt (m + n) := by
  have hsum : x.toRat + y.toRat = ((m + n : Int) : Rat) := by rw [hx.toRat, hy.toRat, Int.cast_add]
  refine ⟨isFinite_add hx.isFinite hy.isFinite ?_, ?_⟩
  · rw [hsum]
    exact cast_lt_limit (by rw [abs_intCast]; exact_mod_cast h)
  · rw [toRat_add hx.isFinite hy.isFinite, hsum, approx_int h]

theorem isInt_foldl_add (h : List.Forall₂ IsInt xs ns) (hx : x.IsInt m)
    (hsmall : m.natAbs + (ns.map Int.natAbs).sum ≤ twoTo 53) :
    (xs.foldl Binary64.add x).IsInt (m + ns.sum) := by
  induction h generalizing x m with
  | nil => simpa using hx
  | @cons y n xs ns hy _ ih =>
    rw [List.map_cons, List.sum_cons] at hsmall
    have habs := Int.natAbs_add_le m n
    rw [List.foldl_cons, List.sum_cons, ← add_assoc]
    exact ih (hx.add hy (by omega)) (by omega)

end Binary64

namespace Rollup

open Binary64 Calendar

/-! ## Tallies -/

/-- What was measured on a day, in whole numbers. -/
structure Tally where
  count : Int
  sum : Int
  average : Int
  least : Int
  greatest : Int

namespace Tally

def zero : Tally := ⟨0, 0, 0, 0, 0⟩

/-- The numbers of a tally, in the order of the statistics of a day. -/
def entries (t : Tally) : List Int := [t.count, t.sum, t.average, t.least, t.greatest]

/-- Something was measured, all of it positive, and the sum is one of as many numbers between the
extremes. -/
structure Sound (t : Tally) : Prop where
  small : ∀ n ∈ t.entries, n.natAbs < twoTo 40
  one_le_count : 1 ≤ t.count
  least_pos : 0 < t.least
  le_sum : t.least * t.count ≤ t.sum
  sum_le : t.sum ≤ t.greatest * t.count

end Tally

/-- An entry that is a whole number, written as an integer or as a double. -/
inductive IsInteger : Value → Int → Prop where
  | int (n : Int) : IsInteger (.int n) n
  | float {x : Binary64} {n : Int} : x.IsInt n → IsInteger (.float x) n

/-- What a rollup holds for a day: nothing, or a tally. -/
inductive Measured (rollup : Record) (bucket : String) : Option Tally → Prop where
  | absent : (∀ statistic ∈ statistics, rollup.value (key statistic bucket) = .null) →
      Measured rollup bucket none
  | present {t : Tally} : t.Sound →
      List.Forall₂ (fun statistic n => IsInteger (rollup.value (key statistic bucket)) n)
        statistics t.entries → Measured rollup bucket (some t)

/-- The numbers of a day are those of a tally. -/
structure Day.Tells (x : Day) (t : Tally) : Prop where
  count : x.count.IsInt t.count
  sum : x.sum.IsInt t.sum
  least : x.least.IsInt t.least
  greatest : x.greatest.IsInt t.greatest

variable {rollup : Record} {bucket : String} {v : Value} {n : Int} {t : Tally}
  {ts : List Tally} {days : List Day} {d : Date}

theorem isNumeric_of_isInteger (h : IsInteger v n) (hsmall : n.natAbs < twoTo 40) :
    IsNumeric v := by
  cases h with
  | int n =>
    refine .int ?_
    have h40 : twoTo 40 ≤ twoTo 53 := twoTo_mono (by decide)
    have hlimit := twoTo_lt_limit
    rw [Value.beyondDouble_int]
    omega
  | float hx => exact .float hx.isFinite

theorem isInt_number (h : IsInteger v n) (hsmall : n.natAbs < twoTo 40) : (number v).IsInt n := by
  cases h with
  | int n =>
    have h40 : twoTo 40 ≤ twoTo 53 := twoTo_mono (by decide)
    exact isInt_ofInt (by omega)
  | float hx =>
    rw [number]
    split
    · rename_i hzero
      rw [hx.eq_zero hzero]
      exact isInt_zero
    · exact hx

theorem Day.tells_zero (h : ∀ statistic ∈ statistics,
    rollup.value (key statistic (dayText d)) = .null) : (dayAt rollup d).Tells .zero := by
  have hzero (statistic : String) (hs : statistic ∈ statistics) :
      (number (rollup.value (key statistic (dayText d)))).IsInt 0 := by
    rw [h statistic hs]
    exact isInt_zero
  exact ⟨hzero "count" (by decide), hzero "sum" (by decide), hzero "min" (by decide),
    hzero "max" (by decide)⟩

/-- The entries of a day that was measured, or was not, are read as they are. -/
theorem Measured.tells {tally : Option Tally} (h : Measured rollup (dayText d) tally) :
    (∀ k ∈ dayKeys d, IsNumeric (rollup.value k)) ∧
      (dayAt rollup d).Tells (tally.getD .zero) := by
  cases h with
  | absent hnull =>
    refine ⟨?_, Day.tells_zero hnull⟩
    rw [dayKeys, List.forall_mem_map]
    intro statistic hs
    rw [hnull statistic hs]
    exact .null
  | @present t hsound hentries =>
    have hsmall := hsound.small
    simp only [Tally.entries, List.mem_cons, List.not_mem_nil, or_false, forall_eq_or_imp,
      forall_eq] at hsmall
    obtain ⟨hcount', hsum', haverage', hleast', hgreatest'⟩ := hsmall
    simp only [statistics, Tally.entries, List.forall₂_cons, List.Forall₂.nil, and_true] at hentries
    obtain ⟨hcount, hsum, haverage, hleast, hgreatest⟩ := hentries
    refine ⟨?_, isInt_number hcount hcount', isInt_number hsum hsum',
      isInt_number hleast hleast', isInt_number hgreatest hgreatest'⟩
    simp only [dayKeys, List.map_cons, List.map_nil, List.mem_cons, List.not_mem_nil, or_false,
      forall_eq_or_imp, forall_eq]
    exact ⟨isNumeric_of_isInteger hcount hcount', isNumeric_of_isInteger hsum hsum',
      isNumeric_of_isInteger haverage haverage', isNumeric_of_isInteger hleast hleast',
      isNumeric_of_isInteger hgreatest hgreatest'⟩

/-! ## Averages -/

/-- Days of which each has its sum between two multiples of its count have so together. -/
theorem sums_between {low high : Rat}
    (h : ∀ t ∈ ts, low * t.count ≤ t.sum ∧ t.sum ≤ high * t.count) :
    low * ((ts.map Tally.count).sum : Int) ≤ ((ts.map Tally.sum).sum : Int) ∧
      ((ts.map Tally.sum).sum : Int) ≤ high * ((ts.map Tally.count).sum : Int) := by
  induction ts with
  | nil => simp
  | cons t ts ih =>
    obtain ⟨hfirst, hrest⟩ := List.forall_mem_cons.mp h
    obtain ⟨hlow, hhigh⟩ := ih hrest
    simp only [List.map_cons, List.sum_cons, Int.cast_add, mul_add]
    exact ⟨add_le_add hfirst.1 hlow, add_le_add hfirst.2 hhigh⟩

/-- Numbers of a week that are below `2 ^ 40` are added without rounding. -/
theorem isInt_total {f : Nat → Binary64} {g : Nat → Int} (h : ∀ n < weekDays, (f n).IsInt (g n))
    (hsmall : ∀ n < weekDays, (g n).natAbs < twoTo 40) :
    (total ((List.range weekDays).map f)).IsInt ((List.range weekDays).map g).sum := by
  have hpairs : List.Forall₂ IsInt ((List.range weekDays).map f) ((List.range weekDays).map g) := by
    rw [List.forall₂_map_left_iff, List.forall₂_map_right_iff, List.forall₂_same]
    exact fun n hn => h n (List.mem_range.mp hn)
  have hbound := List.sum_le_card_nsmul (((List.range weekDays).map g).map Int.natAbs) (twoTo 40)
    (by
      simp only [List.map_map, List.forall_mem_map, List.mem_range]
      exact fun n hn => (hsmall n hn).le)
  have hweek : weekDays * twoTo 40 ≤ twoTo 53 := by decide
  rw [List.length_map, List.length_map, List.length_range, nsmul_eq_mul] at hbound
  have htotal := isInt_foldl_add hpairs isInt_zero (by simpa using hbound.trans hweek)
  rwa [zero_add] at htotal

section Week

variable {day : Nat → Day} {tally : Nat → Tally}
  (hday : ∀ n < weekDays, (day n).Tells (tally n))
  (htally : ∀ n < weekDays, tally n = .zero ∨ (tally n).Sound)
  (hsound : ∃ n < weekDays, (tally n).Sound)

include htally hsound in
theorem counts_pos : 0 < ((List.range weekDays).map fun n => (tally n).count).sum := by
  obtain ⟨n, hn, hn'⟩ := hsound
  have hnonneg : ∀ m ∈ (List.range weekDays).map fun n => (tally n).count, 0 ≤ m := by
    rw [List.forall_mem_map]
    intro k hk
    rcases htally k (List.mem_range.mp hk) with hzero | hk'
    · rw [hzero]
      exact le_rfl
    · exact zero_le_one.trans hk'.one_le_count
  have hone := List.single_le_sum hnonneg (tally n).count
    (List.mem_map.mpr ⟨n, List.mem_range.mpr hn, rfl⟩)
  exact zero_lt_one.trans_le (hn'.one_le_count.trans hone)

include hday htally hsound in
/-- The least number of a week is at most the exact average of each day. -/
theorem leastNonzero_bounds {m : Binary64}
    (hm : m = leastNonzero ((List.range weekDays).map fun n => (day n).least)) :
    m.isFinite = true ∧ ∀ n < weekDays, m.toRat * (tally n).count ≤ (tally n).sum := by
  have hfinite : ∀ x ∈ (List.range weekDays).map fun n => (day n).least, x.isFinite = true := by
    rw [List.forall_mem_map]
    exact fun n hn => (hday n (List.mem_range.mp hn)).least.isFinite
  have hmem (n : Nat) (hn : n < weekDays) :
      (day n).least ∈ (List.range weekDays).map fun n => (day n).least :=
    List.mem_map.mpr ⟨n, List.mem_range.mpr hn, rfl⟩
  have hnonzero (n : Nat) (hn : n < weekDays) (h : (tally n).Sound) :
      (day n).least.isZero = false := by
    rw [← Bool.not_eq_true]
    exact fun hzero => h.least_pos.ne' ((hday n hn).least.eq_zero hzero)
  rw [hm]
  rcases leastNonzero_cases hfinite with hleast | ⟨hall, -⟩
  · refine ⟨hfinite _ hleast.mem, fun n hn => ?_⟩
    rcases htally n hn with hzero | hn'
    · simp [hzero, Tally.zero]
    · have hle := hleast.le _ (hmem n hn) (hnonzero n hn hn')
      have hcount : (0 : Rat) ≤ (tally n).count := by
        exact_mod_cast zero_le_one.trans hn'.one_le_count
      rw [(hday n hn).least.toRat] at hle
      calc _ ≤ ((tally n).least : Rat) * (tally n).count := mul_le_mul_of_nonneg_right hle hcount
        _ ≤ (tally n).sum := by exact_mod_cast hn'.le_sum
  · obtain ⟨n, hn, hn'⟩ := hsound
    have hzero := hall _ (hmem n hn)
    rw [hnonzero n hn hn'] at hzero
    cases hzero

include hday htally in
/-- The greatest number of a week is at least the exact average of each day. -/
theorem greatestOf_bounds {m : Binary64}
    (hm : m = greatestOf ((List.range weekDays).map fun n => (day n).greatest)) :
    m.isFinite = true ∧ ∀ n < weekDays, (tally n).sum ≤ m.toRat * (tally n).count := by
  have hfinite : ∀ x ∈ (List.range weekDays).map fun n => (day n).greatest, x.isFinite = true := by
    rw [List.forall_mem_map]
    exact fun n hn => (hday n (List.mem_range.mp hn)).greatest.isFinite
  have hgreatest := greatestOf_isGreatest (by simp [weekDays]) hfinite
  rw [← hm] at hgreatest
  refine ⟨hfinite _ hgreatest.mem, fun n hn => ?_⟩
  rcases htally n hn with hzero | hn'
  · simp [hzero, Tally.zero]
  · have hle := hgreatest.le _ (List.mem_map.mpr ⟨n, List.mem_range.mpr hn, rfl⟩)
    have hcount : (0 : Rat) ≤ (tally n).count := by
      exact_mod_cast zero_le_one.trans hn'.one_le_count
    rw [(hday n hn).greatest.toRat] at hle
    calc ((tally n).sum : Rat) ≤ (tally n).greatest * (tally n).count := by
          exact_mod_cast hn'.sum_le
      _ ≤ _ := mul_le_mul_of_nonneg_right hle hcount

include hday htally hsound in
theorem weekOf_consistent {v : View} (hv : v = weekOf ((List.range weekDays).map day)) :
    v.least.atMost v.average = true ∧ v.average.atMost v.greatest = true := by
  have hsmall (n : Nat) (hn : n < weekDays) :
      (tally n).count.natAbs < twoTo 40 ∧ (tally n).sum.natAbs < twoTo 40 := by
    rcases htally n hn with hzero | hn'
    · rw [hzero]
      decide
    · exact ⟨hn'.small _ (by simp [Tally.entries]), hn'.small _ (by simp [Tally.entries])⟩
  have hcount := isInt_total (fun n hn => (hday n hn).count) fun n hn => (hsmall n hn).1
  have hsum := isInt_total (fun n hn => (hday n hn).sum) fun n hn => (hsmall n hn).2
  have hpos := counts_pos htally hsound
  have haverage : v.average = (total ((List.range weekDays).map fun n => (day n).sum)).div
      (total ((List.range weekDays).map fun n => (day n).count)) := by
    rw [hv, weekOf, weightedAverage, List.map_map, List.map_map]
    exact if_neg fun hzero => hpos.ne' (hcount.eq_zero hzero)
  have hleast := leastNonzero_bounds hday htally hsound (m := v.least) (by
    rw [hv, weekOf, List.map_map]
    rfl)
  have hgreatest := greatestOf_bounds hday htally (m := v.greatest) (by
    rw [hv, weekOf, List.map_map]
    rfl)
  have heach : ∀ t ∈ (List.range weekDays).map tally,
      v.least.toRat * t.count ≤ t.sum ∧ t.sum ≤ v.greatest.toRat * t.count := by
    rw [List.forall_mem_map]
    intro n hn
    rw [List.mem_range] at hn
    exact ⟨hleast.2 n hn, hgreatest.2 n hn⟩
  have hbetween := sums_between heach
  rw [List.map_map, List.map_map] at hbetween
  have hpos' : (0 : Rat) < (total ((List.range weekDays).map fun n => (day n).count)).toRat := by
    rw [hcount.toRat]
    exact_mod_cast hpos
  rw [haverage]
  refine ⟨atMost_div hleast.1 hsum.isFinite hcount.isFinite hpos' ?_,
    div_atMost hgreatest.1 hsum.isFinite hcount.isFinite hpos' ?_⟩
  · rw [hcount.toRat, hsum.toRat]
    exact hbetween.1
  · rw [hcount.toRat, hsum.toRat]
    exact hbetween.2

end Week

theorem Measured.sound {tally : Option Tally} (h : Measured rollup bucket tally) :
    tally = none ∨ (tally.getD .zero).Sound := by
  cases h with
  | absent => exact .inl rfl
  | present hsound => exact .inr hsound

/-- In a week of which each day was measured soundly or not at all, and some day was, the average is
between the least and the greatest number. -/
theorem week_consistent (rollup : Record) (reference : Date) (c : Civil)
    (tallies : Nat → Option Tally) (hshows : Shows reference.days c) (hyear : 1000 ≤ c.year)
    (hdays : ∀ n < weekDays, Measured rollup (dayText (reference.addDays (-n))) (tallies n))
    (hsome : ∃ n < weekDays, tallies n ≠ none) :
    ∃ view, week rollup reference = .ok view ∧ view.least.atMost view.average = true ∧
      view.average.atMost view.greatest = true := by
  have hlate := weekDays_le_days hshows hyear
  have hweek := week_of_numeric (by omega) fun n hn => (hdays n hn).tells.1
  refine ⟨_, hweek, weekOf_consistent (fun n hn => (hdays n hn).tells.2) (fun n hn => ?_) ?_ rfl⟩
  · exact (hdays n hn).sound.imp_left fun hnone => by rw [hnone]; rfl
  · obtain ⟨n, hn, hsome⟩ := hsome
    exact ⟨n, hn, (hdays n hn).sound.resolve_left hsome⟩

/-- Two days with measurements, a leap day and the day after the next, which holds a double. -/
def twoDays : Record :=
  [("count_2024-02-29", .int 2), ("sum_2024-02-29", .int 15), ("avg_2024-02-29", .int 7),
    ("min_2024-02-29", .int 6), ("max_2024-02-29", .int 9),
    ("count_2024-03-02", .int 1), ("sum_2024-03-02", .float (.ofInt 5)),
    ("avg_2024-03-02", .float (.ofInt 5)), ("min_2024-03-02", .float (.ofInt 5)),
    ("max_2024-03-02", .float (.ofInt 5))]

def leapTally : Tally := ⟨2, 15, 7, 6, 9⟩

def marchTally : Tally := ⟨1, 5, 5, 5, 5⟩

def twoTallies (n : Nat) : Option Tally :=
  if n = 1 then some marchTally else if n = 3 then some leapTally else none

theorem sound_leapTally : leapTally.Sound :=
  ⟨by decide, by decide, by decide, by decide, by decide⟩

theorem sound_marchTally : marchTally.Sound :=
  ⟨by decide, by decide, by decide, by decide, by decide⟩

theorem measured_leapDay : Measured twoDays "2024-02-29" (some leapTally) :=
  .present sound_leapTally (.cons (.int 2) (.cons (.int 15) (.cons (.int 7) (.cons (.int 6)
    (.cons (.int 9) .nil)))))

theorem measured_marchDay : Measured twoDays "2024-03-02" (some marchTally) := by
  have hfive : IsInteger (.float (.ofInt 5)) 5 := .float (isInt_ofInt (by decide))
  exact .present sound_marchTally (.cons (.int 1) (.cons hfive (.cons hfive (.cons hfive
    (.cons hfive .nil)))))

theorem unmeasured {bucket : String}
    (h : ∀ statistic ∈ statistics, (twoDays.value (key statistic bucket)).isNull = true) :
    Measured twoDays bucket none := by
  refine .absent fun statistic hs => ?_
  have hnull := h statistic hs
  revert hnull
  cases twoDays.value (key statistic bucket) <;> simp [Value.isNull]

theorem week_consistent_twoDays :
    ∃ view, week twoDays (Civil.mk 2024 3 3).date = .ok view ∧
      view.least.atMost view.average = true ∧ view.average.atMost view.greatest = true := by
  have htext : ∀ n < weekDays, dayText ((Civil.mk 2024 3 3).date.addDays (-n))
      = ["2024-03-03", "2024-03-02", "2024-03-01", "2024-02-29", "2024-02-28", "2024-02-27",
        "2024-02-26"].getD n "" := by decide +kernel
  refine week_consistent twoDays _ ⟨2024, 3, 3⟩ twoTallies (shows_iff.mpr (by decide +kernel))
    (by decide) (fun n hn => ?_) ⟨1, by decide, by decide⟩
  rw [htext n hn]
  match n, hn with
  | 0, _ => exact unmeasured (by decide +kernel)
  | 1, _ => exact measured_marchDay
  | 2, _ => exact unmeasured (by decide +kernel)
  | 3, _ => exact measured_leapDay
  | 4, _ => exact unmeasured (by decide +kernel)
  | 5, _ => exact unmeasured (by decide +kernel)
  | 6, _ => exact unmeasured (by decide +kernel)

end Rollup
end EventQuery
