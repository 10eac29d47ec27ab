import EventQuery.Calendar.Instant
import EventQuery.Proofs.Calendar.Gregorian

/-!
# EventQuery.Proofs.Calendar.Month

Dates and times some months earlier, said without `Civil.addMonths`. The months of the calendar are
counted in one line; a date some months earlier lies in the month so many before, on the same day or
on the last day of that month. There is one such date (`Civil.monthsEarlier_iff`), and one such time
of the same time of day (`DateTime.monthsEarlier_iff`). A time is in range exactly when its year is
one of 1 to 9999 (`DateTime.inYears_iff`).
-/

namespace EventQuery

open Calendar

/-- A year begins on or before a day exactly when it is not after the year of the day. -/
theorem Calendar.daysBeforeYear_le_iff {y d : Int} : daysBeforeYear y ≤ d ↔ y ≤ yearOf d := by
  obtain ⟨hlow, hhigh⟩ := yearOf_bounds d
  constructor
  · intro h
    exact Int.lt_add_one_iff.mp (daysBeforeYear_lt_iff.mp (h.trans_lt hhigh))
  · intro h
    by_contra hlt
    have := daysBeforeYear_lt_iff.mp (hlow.trans_lt (not_le.mp hlt))
    omega

namespace Civil

/-- The place of a date's month among all months. -/
def monthIndex (c : Civil) : Int := 12 * c.year + (c.month - 1)

/-- A date some months before a date. -/
structure MonthsEarlier (n : Nat) (c earlier : Civil) : Prop where
  month : earlier.monthIndex = c.monthIndex - n
  day : earlier.day = min c.day (monthLength earlier.year earlier.month)

theorem addMonths_month_bounds (c : Civil) (n : Int) :
    1 ≤ (c.addMonths n).month ∧ (c.addMonths n).month ≤ 12 := by
  rw [addMonths]
  dsimp only
  omega

theorem monthIndex_addMonths (c : Civil) (n : Int) :
    (c.addMonths n).monthIndex = c.monthIndex + n := by
  rw [monthIndex, monthIndex, addMonths]
  dsimp only
  omega

theorem isValid_addMonths {c : Civil} (h : c.isValid = true) (n : Int) :
    (c.addMonths n).isValid = true := by
  have hmonth := addMonths_month_bounds c n
  have hlength := (monthLength_bounds (y := (c.addMonths n).year) hmonth).1
  have hday : (c.addMonths n).day
      = min c.day (monthLength (c.addMonths n).year (c.addMonths n).month) := rfl
  have hfirst := (c.isValid_iff.mp h).2.1
  rw [isValid_iff, hday]
  omega

/-- A month is known from its place. -/
theorem month_eq_of_monthIndex_eq {c e : Civil} (hc : 1 ≤ c.month ∧ c.month ≤ 12)
    (he : 1 ≤ e.month ∧ e.month ≤ 12) (h : e.monthIndex = c.monthIndex) :
    e.year = c.year ∧ e.month = c.month := by
  rw [monthIndex, monthIndex] at h
  omega

theorem monthsEarlier_iff {c earlier : Civil} (h : earlier.isValid = true) (n : Nat) :
    MonthsEarlier n c earlier ↔ earlier = c.addMonths (-n) := by
  constructor
  · rintro ⟨hindex, hday⟩
    rw [Int.sub_eq_add_neg, ← monthIndex_addMonths] at hindex
    obtain ⟨hyear, hmonth⟩ := month_eq_of_monthIndex_eq (addMonths_month_bounds c _)
      (earlier.isValid_iff.mp h).1 hindex
    rw [hyear, hmonth] at hday
    cases earlier
    cases hyear
    cases hmonth
    cases hday
    rfl
  · rintro rfl
    refine ⟨?_, rfl⟩
    rw [monthIndex_addMonths, Int.sub_eq_add_neg]

end Civil

namespace DateTime

variable {t u : DateTime}

/-- A time on the same clock, at the same time of day, some months before a time. -/
structure MonthsEarlier (n : Nat) (t earlier : DateTime) : Prop where
  clock : earlier.offset = t.offset
  time : earlier.timeOfDay = t.timeOfDay
  date : t.date.civil.MonthsEarlier n earlier.date.civil

/-- A time is its date and its time of day. -/
theorem eq_withDate (t : DateTime) : t = t.withDate t.date := by
  obtain ⟨wall, offset⟩ := t
  have hwall := Int.mul_ediv_add_emod wall microsPerDay
  rw [withDate, DateTime.mk.injEq, date, timeOfDay]
  exact ⟨by rw [Int.mul_comm, hwall], rfl⟩

theorem date_withDate (t : DateTime) (d : Date) : (t.withDate d).date = d := by
  have hpos : 0 < microsPerDay := by decide
  refine (Date.eq_mk_iff.mpr ?_).symm
  rw [withDate, timeOfDay, Int.add_comm, Int.add_mul_ediv_right _ _ hpos.ne',
    Int.ediv_eq_zero_of_lt (Int.emod_nonneg _ hpos.ne') (Int.emod_lt_of_pos _ hpos), Int.zero_add]

theorem timeOfDay_withDate (t : DateTime) (d : Date) : (t.withDate d).timeOfDay = t.timeOfDay := by
  rw [timeOfDay, withDate, timeOfDay]
  simp

theorem monthsEarlier_iff {n : Nat} :
    MonthsEarlier n t u ↔ u = t.withDate (t.date.civil.addMonths (-n)).date := by
  constructor
  · rintro ⟨hclock, htime, hdate⟩
    have hcivil := (Civil.monthsEarlier_iff u.date.isValid_civil n).mp hdate
    rw [← hcivil, Date.date_civil]
    calc u = u.withDate u.date := u.eq_withDate
      _ = t.withDate u.date := by
        rw [withDate, withDate, DateTime.mk.injEq]
        exact ⟨by rw [htime], hclock⟩
  · rintro rfl
    refine ⟨rfl, timeOfDay_withDate t _, ?_⟩
    rw [Civil.monthsEarlier_iff (Date.isValid_civil _), date_withDate,
      Civil.civil_date (Civil.isValid_addMonths t.date.isValid_civil _)]

/-! ## The years of the calendar -/

/-- A time in the years 1 to 9999. -/
def InYears (t : DateTime) : Prop := 1 ≤ t.date.civil.year ∧ t.date.civil.year ≤ 9999

instance (t : DateTime) : Decidable t.InYears := inferInstanceAs (Decidable (_ ∧ _))

theorem inYears_iff : inYears t.wall = true ↔ t.InYears := by
  have hpos : 0 < microsPerDay := by decide
  have hlow : 0 ≤ t.wall ↔ 1 ≤ yearOf t.date.days := by
    rw [← daysBeforeYear_le_iff, daysBeforeYear_one]
    exact (Int.ediv_nonneg_iff_of_pos hpos).symm
  have hhigh : t.wall < Date.endOfYears * microsPerDay ↔ yearOf t.date.days < 10000 := by
    rw [← not_le, ← not_le, ← daysBeforeYear_le_iff, not_le, not_le]
    exact (Int.ediv_lt_iff_lt_mul hpos).symm
  have hyear : t.date.civil.year = yearOf t.date.days := rfl
  rw [inYears, Bool.and_eq_true, decide_eq_true_iff, decide_eq_true_iff, hlow, hhigh, InYears,
    hyear]
  omega

end DateTime
end EventQuery
