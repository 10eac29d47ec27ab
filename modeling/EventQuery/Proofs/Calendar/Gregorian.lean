import EventQuery.Calendar.Date
import Mathlib.Order.Monotone.Basic
import Mathlib.Tactic.IntervalCases

/-!
# EventQuery.Proofs.Calendar.Gregorian

The calendar that `Date.civil` computes is the one that is counted day by day. `Civil.next` is the
day after a day: the next of its month, else the first of the next month, else the first of
January. Numbers of days and dates by year, month and day correspond (`Date.date_civil`,
`Civil.civil_date`), the day after a day is the next number (`Civil.date_next`), and so a day shows
what steps from the first of January of year 1, forwards or backwards, come to (`shows_iff`).
-/

namespace EventQuery
namespace Calendar

/-! ## Years -/

theorem isLeap_iff (y : Int) : isLeap y = true ↔ y % 4 = 0 ∧ (y % 100 ≠ 0 ∨ y % 400 = 0) := by
  simp [isLeap]

def yearLength (y : Int) : Nat := if isLeap y then 366 else 365

theorem daysBeforeYear_eq (y : Int) :
    daysBeforeYear y = 365 * (y - 1) + (y - 1) / 4 - (y - 1) / 100 + (y - 1) / 400 := rfl

theorem daysBeforeYear_one : daysBeforeYear 1 = 0 := rfl

theorem yearLength_bounds (y : Int) : 365 ≤ yearLength y ∧ yearLength y ≤ 366 := by
  rw [yearLength]
  split <;> omega

theorem daysBeforeYear_add_one (y : Int) :
    daysBeforeYear (y + 1) = daysBeforeYear y + yearLength y := by
  rw [daysBeforeYear_eq, daysBeforeYear_eq, yearLength]
  by_cases hleap : isLeap y = true
  · rw [if_pos hleap]
    rw [isLeap_iff] at hleap
    omega
  · rw [if_neg hleap]
    rw [isLeap_iff] at hleap
    omega

theorem daysBeforeYear_lt_iff {y z : Int} : daysBeforeYear y < daysBeforeYear z ↔ y < z := by
  refine StrictMono.lt_iff_lt (strictMono_int_of_lt_succ fun y => ?_)
  have hlength := yearLength_bounds y
  rw [daysBeforeYear_add_one]
  omega

/-- A place in the calendar by blocks of 400, 100, 4 and 1 years. A day more than 365 is the last
one of a block of four years, and a block of four that ends a century has it in the last of four
centuries only. -/
structure IsBlock (a b q e rest : Int) : Prop where
  century : 0 ≤ b ∧ b ≤ 3
  four : 0 ≤ q ∧ q ≤ 24
  one : 0 ≤ e ∧ e ≤ 3
  day : 0 ≤ rest ∧ (rest < 365 ∨ rest = 365 ∧ e = 3 ∧ (q = 24 → b = 3))

theorem daysBeforeYear_blocks {a b q e rest : Int} (h : IsBlock a b q e rest) :
    daysBeforeYear (400 * a + 100 * b + 4 * q + e + 1)
      = 146097 * a + 36524 * b + 1461 * q + 365 * e := by
  obtain ⟨hb, hq, he, _⟩ := h
  rw [daysBeforeYear_eq]
  omega

theorem yearLength_blocks {a b q e rest : Int} (h : IsBlock a b q e rest) :
    rest < yearLength (400 * a + 100 * b + 4 * q + e + 1) := by
  obtain ⟨hb, hq, _, _, hsmall | ⟨hlast, he, hcentury⟩⟩ := h
  · have := (yearLength_bounds (400 * a + 100 * b + 4 * q + e + 1)).1
    omega
  · have hleap : isLeap (400 * a + 100 * b + 4 * q + e + 1) = true := by
      rw [isLeap_iff]
      omega
    rw [yearLength, if_pos hleap, hlast]
    decide

/-- A rest divided by a length, at most three times. -/
theorem min_div_three_bounds (rest : Int) {n : Int} (hn : 0 < n) (h : 0 ≤ rest ∧ rest ≤ 4 * n) :
    0 ≤ min (rest / n) 3 ∧ 0 ≤ rest - n * min (rest / n) 3 ∧
      (rest - n * min (rest / n) 3 < n ∨
        min (rest / n) 3 = 3 ∧ rest - n * min (rest / n) 3 ≤ n) := by
  have hdiv := Int.mul_ediv_add_emod rest n
  have hmod := Int.emod_lt_of_pos rest hn
  have hmod' := Int.emod_nonneg rest hn.ne'
  have hnonneg : 0 ≤ rest / n := Int.ediv_nonneg h.1 hn.le
  rcases le_total (rest / n) 3 with hle | hle
  · rw [min_eq_left hle]
    omega
  · have hthree : n * 3 ≤ n * (rest / n) := Int.mul_le_mul_of_nonneg_left hle hn.le
    rw [min_eq_right hle]
    omega

theorem exists_blocks (d : Int) : ∃ a b q e rest, IsBlock a b q e rest ∧
    yearOf d = 400 * a + 100 * b + 4 * q + e + 1 ∧
      d = 146097 * a + 36524 * b + 1461 * q + 365 * e + rest := by
  have hfour : 0 ≤ d % 146097 ∧ d % 146097 < 146097 := by omega
  obtain ⟨hb, hcentury, hcentury'⟩ :=
    min_div_three_bounds (d % 146097) (n := 36524) (by decide) (by omega)
  generalize hb' : min (d % 146097 / 36524) 3 = b at hb hcentury hcentury'
  generalize hr : d % 146097 - 36524 * b = r at hcentury hcentury'
  obtain ⟨he, hone, hone'⟩ :=
    min_div_three_bounds (r % 1461) (n := 365) (by decide) (by omega)
  generalize he' : min (r % 1461 / 365) 3 = e at he hone hone'
  refine ⟨d / 146097, b, r / 1461, e, r % 1461 - 365 * e, ⟨?_, ?_, ?_, hone, ?_⟩, ?_, ?_⟩
  · omega
  · omega
  · omega
  · omega
  · rw [yearOf, hb', hr, he']
  · omega

/-- A day lies in its year. -/
theorem yearOf_bounds (d : Int) :
    daysBeforeYear (yearOf d) ≤ d ∧ d < daysBeforeYear (yearOf d + 1) := by
  obtain ⟨a, b, q, e, rest, hblock, hyear, hd⟩ := exists_blocks d
  have hbefore := daysBeforeYear_blocks hblock
  have hlength := yearLength_blocks hblock
  have hrest := hblock.day.1
  rw [daysBeforeYear_add_one, hyear, hbefore]
  omega

theorem yearOf_eq {d y : Int} (hlow : daysBeforeYear y ≤ d) (hhigh : d < daysBeforeYear (y + 1)) :
    yearOf d = y := by
  obtain ⟨hlow', hhigh'⟩ := yearOf_bounds d
  have hle : y < yearOf d + 1 := daysBeforeYear_lt_iff.mp (by omega)
  have hge : yearOf d < y + 1 := daysBeforeYear_lt_iff.mp (by omega)
  omega

theorem one_le_yearOf {d : Int} (h : 0 ≤ d) : 1 ≤ yearOf d := by
  have hlt : daysBeforeYear 1 < daysBeforeYear (yearOf d + 1) := by
    have := (yearOf_bounds d).2
    rw [daysBeforeYear_one]
    omega
  have := daysBeforeYear_lt_iff.mp hlt
  omega

/-! ## Months -/

theorem monthLength_bounds {y : Int} {m : Nat} (h : 1 ≤ m ∧ m ≤ 12) :
    28 ≤ monthLength y m ∧ monthLength y m ≤ 31 := by
  obtain ⟨hlow, hhigh⟩ := h
  unfold monthLength monthLengths
  cases isLeap y <;> interval_cases m <;> decide

theorem daysBeforeMonth_one (y : Int) : daysBeforeMonth y 1 = 0 := rfl

theorem daysBeforeMonth_add_one (y : Int) {m : Nat} (h : 1 ≤ m) :
    daysBeforeMonth y (m + 1) = daysBeforeMonth y m + monthLength y m := by
  obtain ⟨k, rfl⟩ : ∃ k, m = k + 1 := ⟨m - 1, by omega⟩
  unfold daysBeforeMonth monthLength
  simp only [Nat.add_sub_cancel]
  rw [List.take_add_one, List.foldl_append]
  cases (monthLengths y)[k]? <;> simp

/-- The months of a year make up the year. -/
theorem daysBeforeMonth_thirteen (y : Int) : daysBeforeMonth y 13 = yearLength y := by
  unfold daysBeforeMonth monthLengths yearLength
  cases isLeap y <;> rfl

theorem daysBeforeMonth_mono (y : Int) {m k : Nat} (h : m ≤ k) :
    daysBeforeMonth y (m + 1) ≤ daysBeforeMonth y (k + 1) := by
  induction k, h using Nat.le_induction with
  | base => exact Nat.le_refl _
  | succ k hk ih =>
    rw [daysBeforeMonth_add_one y (by omega : 1 ≤ k + 1)]
    omega

/-- A day of a month of some lengths is found there. -/
theorem monthAndDay_take (lengths : List Nat) {m : Nat} {rest : Nat}
    (h : rest < (lengths[m]?).getD 0) :
    monthAndDay lengths ((lengths.take m).foldl (· + ·) 0 + rest) = (m, rest) := by
  induction lengths generalizing m with
  | nil => simp at h
  | cons length lengths ih =>
    cases m with
    | zero =>
      simp only [List.getElem?_cons_zero, Option.getD_some] at h
      simp [monthAndDay, h]
    | succ m =>
      simp only [List.getElem?_cons_succ] at h
      have hsum : ((length :: lengths).take (m + 1)).foldl (· + ·) 0
          = length + (lengths.take m).foldl (· + ·) 0 := by
        rw [List.take_succ_cons, List.foldl_cons, Nat.zero_add, ← Nat.add_zero length,
          List.foldl_assoc, Nat.add_zero]
      have hrest : length + (lengths.take m).foldl (· + ·) 0 + rest - length
          = (lengths.take m).foldl (· + ·) 0 + rest := by omega
      rw [hsum, monthAndDay, if_neg (by omega), hrest, ih h]

end Calendar

/-! ## Dates -/

open Calendar

theorem Civil.isValid_iff (c : Civil) : c.isValid = true ↔
    (1 ≤ c.month ∧ c.month ≤ 12) ∧ 1 ≤ c.day ∧ c.day ≤ monthLength c.year c.month := by
  simp [Civil.isValid, and_assoc]

/-- A date by year, month and day lies in its year. -/
theorem Civil.days_date_bounds {c : Civil} (h : c.isValid = true) :
    daysBeforeYear c.year ≤ c.date.days ∧ c.date.days < daysBeforeYear (c.year + 1) := by
  obtain ⟨⟨hlow, hhigh⟩, hday, hlength⟩ := c.isValid_iff.mp h
  have hnext := daysBeforeMonth_add_one c.year hlow
  have hyear : daysBeforeMonth c.year (c.month + 1) ≤ yearLength c.year := by
    rw [← daysBeforeMonth_thirteen]
    exact daysBeforeMonth_mono c.year hhigh
  rw [daysBeforeYear_add_one, Civil.date]
  dsimp only
  omega

theorem Civil.civil_date {c : Civil} (h : c.isValid = true) : c.date.civil = c := by
  obtain ⟨hlow, hhigh⟩ := Civil.days_date_bounds h
  obtain ⟨⟨hmonth, _⟩, hday, hlength⟩ := c.isValid_iff.mp h
  have hrest : (c.date.days - daysBeforeYear c.year).toNat
      = ((monthLengths c.year).take (c.month - 1)).foldl (· + ·) 0 + (c.day - 1) := by
    have hdays : c.date.days
        = daysBeforeYear c.year + daysBeforeMonth c.year c.month + (c.day - 1) := rfl
    rw [daysBeforeMonth] at hdays
    omega
  have hfound : c.day - 1 < ((monthLengths c.year)[c.month - 1]?).getD 0 := by
    rw [monthLength] at hlength
    omega
  rw [Date.civil, yearOf_eq hlow hhigh, hrest, monthAndDay_take _ hfound]
  dsimp only
  rw [Nat.sub_add_cancel hmonth, Nat.sub_add_cancel hday]

/-- Every day has a date by year, month and day. -/
theorem Date.exists_civil (d : Date) : ∃ c : Civil, c.isValid = true ∧ c.date = d := by
  obtain ⟨hlow, hhigh⟩ := yearOf_bounds d.days
  rw [daysBeforeYear_add_one, ← daysBeforeMonth_thirteen] at hhigh
  -- the last month that begins on or before the day
  have hmonth : ∃ m, 1 ≤ m ∧ m ≤ 12 ∧
      daysBeforeYear (yearOf d.days) + daysBeforeMonth (yearOf d.days) m ≤ d.days ∧
      d.days < daysBeforeYear (yearOf d.days) + daysBeforeMonth (yearOf d.days) (m + 1) := by
    by_contra hnone
    push Not at hnone
    have hall : ∀ m, 1 ≤ m → m ≤ 13 →
        daysBeforeYear (yearOf d.days) + daysBeforeMonth (yearOf d.days) m ≤ d.days := by
      intro m hm
      induction m, hm using Nat.le_induction with
      | base =>
        intro _
        rw [daysBeforeMonth_one]
        omega
      | succ m hm ih =>
        intro hle
        exact hnone m hm (by omega) (ih (by omega))
    have := hall 13 (by decide) (by decide)
    omega
  obtain ⟨m, hm, hm', hbegin, hend⟩ := hmonth
  rw [daysBeforeMonth_add_one _ hm] at hend
  refine ⟨⟨yearOf d.days, m,
    (d.days - daysBeforeYear (yearOf d.days) - daysBeforeMonth (yearOf d.days) m).toNat + 1⟩,
    ?_, ?_⟩
  · rw [Civil.isValid_iff]
    dsimp only
    omega
  · rw [Civil.date, Date.mk.injEq]
    dsimp only
    omega

theorem Date.eq_mk_iff {d : Date} {n : Int} : d = ⟨n⟩ ↔ d.days = n := by
  cases d
  simp

theorem Date.isValid_civil (d : Date) : d.civil.isValid = true := by
  obtain ⟨c, hc, rfl⟩ := d.exists_civil
  rw [Civil.civil_date hc]
  exact hc

theorem Date.date_civil (d : Date) : d.civil.date = d := by
  obtain ⟨c, hc, rfl⟩ := d.exists_civil
  rw [Civil.civil_date hc]

theorem Date.civil_injective {d d' : Date} (h : d.civil = d'.civil) : d = d' := by
  rw [← d.date_civil, h, d'.date_civil]

/-! ## Day by day -/

/-- The day after a day. -/
def Civil.next (c : Civil) : Civil :=
  if c.day < monthLength c.year c.month then { c with day := c.day + 1 }
  else if c.month < 12 then ⟨c.year, c.month + 1, 1⟩
  else ⟨c.year + 1, 1, 1⟩

theorem Civil.isValid_next {c : Civil} (h : c.isValid = true) : c.next.isValid = true := by
  obtain ⟨hmonth, hday, hlength⟩ := c.isValid_iff.mp h
  unfold Civil.next
  split
  · rw [Civil.isValid_iff]
    dsimp only
    omega
  · split
    · have hnext := (monthLength_bounds (y := c.year) (m := c.month + 1) (by omega)).1
      rw [Civil.isValid_iff]
      dsimp only
      omega
    · have hnext := (monthLength_bounds (y := c.year + 1) (m := 1) (by omega)).1
      rw [Civil.isValid_iff]
      dsimp only
      omega

theorem Civil.date_next {c : Civil} (h : c.isValid = true) : c.next.date = c.date.addDays 1 := by
  obtain ⟨hmonth, hday, hlength⟩ := c.isValid_iff.mp h
  have hsucc := daysBeforeMonth_add_one c.year hmonth.1
  unfold Civil.next
  split
  · rw [Civil.date, Civil.date, Date.addDays, Date.mk.injEq]
    dsimp only
    omega
  · rename_i hend
    split
    · rw [Civil.date, Civil.date, Date.addDays, Date.mk.injEq]
      dsimp only
      omega
    · -- the day is the last of December
      have hlast : c.month = 12 := by omega
      have hyear : daysBeforeMonth c.year (12 + 1) = yearLength c.year :=
        daysBeforeMonth_thirteen c.year
      rw [hlast] at hsucc hlength hend
      rw [Civil.date, Civil.date, Date.addDays, Date.mk.injEq]
      dsimp only
      rw [daysBeforeYear_add_one, daysBeforeMonth_one, hlast]
      omega

theorem Date.civil_addDays_one (d : Date) : (d.addDays 1).civil = d.civil.next := by
  rw [← Civil.civil_date (Civil.isValid_next d.isValid_civil), Civil.date_next d.isValid_civil,
    d.date_civil]

/-- The date that a day shows, counted day by day from the first of January of year 1, forwards and
backwards. -/
inductive Calendar.Shows : Int → Civil → Prop where
  | first : Shows 0 ⟨1, 1, 1⟩
  | after {n : Int} {c : Civil} : Shows n c → Shows (n + 1) c.next
  | before {n : Int} {c : Civil} : c.isValid = true → Shows (n + 1) c.next → Shows n c

theorem Date.shows_civil (d : Date) : Shows d.days d.civil := by
  obtain ⟨n⟩ := d
  induction n using Int.induction_on with
  | zero => exact .first
  | succ n ih =>
    have hnext := Date.civil_addDays_one ⟨n⟩
    rw [Date.addDays] at hnext
    rw [hnext]
    exact ih.after
  | pred n ih =>
    have hnext := Date.civil_addDays_one ⟨-(n : Int) - 1⟩
    rw [Date.addDays, Int.sub_add_cancel] at hnext
    refine .before (Date.isValid_civil _) ?_
    rw [Int.sub_add_cancel, ← hnext]
    exact ih

/-- The calendar that is counted is the one that is computed. -/
theorem shows_iff {n : Int} {c : Civil} : Shows n c ↔ (⟨n⟩ : Date).civil = c := by
  constructor
  · intro h
    induction h with
    | first => rfl
    | @after n c _ ih => rw [← ih, ← Date.civil_addDays_one, Date.addDays]
    | @before n c hc _ ih =>
      have hdate : c.next.date = ⟨n + 1⟩ := by rw [← ih, Date.date_civil]
      rw [Civil.date_next hc, Date.addDays, Date.mk.injEq] at hdate
      have hdays : (⟨n⟩ : Date) = c.date := (Date.eq_mk_iff.mpr (by omega)).symm
      rw [hdays, Civil.civil_date hc]
  · rintro rfl
    exact Date.shows_civil ⟨n⟩

end EventQuery
