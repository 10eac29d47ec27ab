import EventQuery.Calendar.Grid
import EventQuery.Proofs.Calendar.Gregorian
import Mathlib.Data.Int.LeastGreatest
import Mathlib.Order.Bounds.Basic
import Mathlib.Tactic.Ring

/-!
# EventQuery.Proofs.Calendar.Grid

The grid points of an interval, said without `Interval.floor`: whole minutes and hours, and the
midnights of days, of Mondays, of firsts of a month and of firsts of January in the calendar that
is counted day by day. `Interval.floor` finds the last of them at or before a time
(`isGreatest_floor`), from which follow that it leaves grid points alone, keeps the order of times,
and that the floor of a coarser interval is reached through a finer one (`floor_floor`).
-/

namespace EventQuery
namespace Interval

open Calendar

/-- What an interval is counted in. -/
def unit : Interval → Int
  | minutely => microsPerMinute
  | hourly => microsPerHour
  | _ => microsPerDay

/-- Whether a span of an interval begins with its `n`-th unit. Day zero is a Monday. -/
def Begins (i : Interval) (n : Int) : Prop :=
  match i with
  | weekly => n % 7 = 0
  | monthly => ∃ c, Shows n c ∧ c.day = 1
  | yearly => ∃ c, Shows n c ∧ c.day = 1 ∧ c.month = 1
  | _ => True

/-- Where a span of an interval begins. -/
def IsGridPoint (i : Interval) (g : Int) : Prop := ∃ n, i.Begins n ∧ g = n * i.unit

example : weekly.Begins (Civil.date ⟨2026, 3, 16⟩).days := rfl

variable {i : Interval} {g t u : Int}

theorem unit_pos (i : Interval) : 0 < i.unit := by cases i <;> decide

/-! ## The first day of a span -/

theorem shows_of_days {c : Civil} (h : c.isValid = true) {n : Int} (hn : c.date.days = n) :
    Shows n c := by
  rw [shows_iff, ← hn]
  exact Civil.civil_date h

/-- The days of the month of a day, by their distance from it. -/
theorem days_of_month {c : Civil} (h : c.isValid = true) {k : Nat} (hk : 1 ≤ k) (hkc : k ≤ c.day) :
    (⟨c.year, c.month, k⟩ : Civil).isValid = true ∧
      (⟨c.year, c.month, k⟩ : Civil).date.days = c.date.days + k - c.day := by
  obtain ⟨hmonth, hday, hlength⟩ := c.isValid_iff.mp h
  rw [Civil.isValid_iff, Civil.date, Civil.date]
  dsimp only
  omega

theorem isGreatest_monthStart (d : Date) :
    IsGreatest {n | monthly.Begins n ∧ n ≤ d.days} d.monthStart.days := by
  have hvalid := d.isValid_civil
  have hdays : d.civil.date.days = d.days := by rw [d.date_civil]
  have hstart : d.monthStart = (⟨d.civil.year, d.civil.month, 1⟩ : Civil).date := rfl
  rw [hstart]
  generalize d.civil = c at hvalid hdays
  have hday := (c.isValid_iff.mp hvalid).2.1
  obtain ⟨hfirst, hbegin⟩ := days_of_month hvalid (k := 1) le_rfl hday
  refine ⟨⟨⟨_, shows_of_days hfirst rfl, rfl⟩, by omega⟩, ?_⟩
  rintro n ⟨⟨c', hshows, hone⟩, hle⟩
  by_contra hlt
  -- a later day on or before the day is in the same month, and not the first of it
  obtain ⟨hlater, hlater'⟩ :=
    days_of_month hvalid (k := (n + c.day - d.days).toNat) (by omega) (by omega)
  have hcivil := shows_iff.mp (shows_of_days hlater (n := n) (by omega))
  rw [← shows_iff.mp hshows, hcivil] at hone
  dsimp only at hone
  omega

theorem firstOfJanuary (y : Int) : (⟨y, 1, 1⟩ : Civil).isValid = true ∧
    (⟨y, 1, 1⟩ : Civil).date.days = daysBeforeYear y := by
  have hlength := (monthLength_bounds (y := y) (m := 1) (by omega)).1
  rw [Civil.isValid_iff, Civil.date]
  dsimp only
  rw [daysBeforeMonth_one]
  omega

/-- A year begins with the first of January. -/
theorem yearly_begins_iff {n : Int} : yearly.Begins n ↔ ∃ y, daysBeforeYear y = n := by
  constructor
  · rintro ⟨⟨year, month, day⟩, hshows, hday, hmonth⟩
    obtain rfl : day = 1 := hday
    obtain rfl : month = 1 := hmonth
    refine ⟨year, ?_⟩
    rw [← (firstOfJanuary year).2, ← shows_iff.mp hshows, Date.date_civil]
  · rintro ⟨y, hy⟩
    obtain ⟨hvalid, hdays⟩ := firstOfJanuary y
    exact ⟨_, shows_of_days hvalid (by omega), rfl, rfl⟩

theorem isGreatest_yearStart (d : Date) :
    IsGreatest {n | yearly.Begins n ∧ n ≤ d.days} d.yearStart.days := by
  obtain ⟨hlow, hhigh⟩ := yearOf_bounds d.days
  refine ⟨⟨yearly_begins_iff.mpr ⟨_, rfl⟩, hlow⟩, ?_⟩
  rintro n ⟨hn, hle⟩
  obtain ⟨y, rfl⟩ := yearly_begins_iff.mp hn
  have hyear : y < yearOf d.days + 1 := daysBeforeYear_lt_iff.mp (by omega)
  have hbefore : ¬yearOf d.days < y := by omega
  exact not_lt.mp (mt daysBeforeYear_lt_iff.mp hbefore)

theorem isGreatest_weekStart (d : Date) :
    IsGreatest {n | weekly.Begins n ∧ n ≤ d.days} d.weekStart.days := by
  have hstart : d.weekStart.days = d.days - d.days % 7 := rfl
  rw [hstart]
  refine ⟨⟨?_, by omega⟩, ?_⟩
  · show (d.days - d.days % 7) % 7 = 0
    omega
  · rintro n ⟨hn, hle⟩
    have hmonday : n % 7 = 0 := hn
    omega

/-- The first day of the span that holds a day is the last on or before it that begins one. -/
theorem isGreatest_floorDate (i : Interval) (d : Date) :
    IsGreatest {n | i.Begins n ∧ n ≤ d.days} (i.floorDate d).days := by
  cases i with
  | weekly => exact isGreatest_weekStart d
  | monthly => exact isGreatest_monthStart d
  | yearly => exact isGreatest_yearStart d
  | _ => exact ⟨⟨trivial, le_rfl⟩, fun n hn => hn.2⟩

/-! ## The last point at or before a time -/

/-- The floor of a time as a number of units. -/
theorem exists_floor_eq (i : Interval) (t : Int) :
    ∃ f, i.floor t = f * i.unit ∧ IsGreatest {n | i.Begins n ∧ n ≤ t / i.unit} f := by
  have hunits (hfloor : i.floor t = t - t % i.unit) (hall : ∀ n, i.Begins n) :
      ∃ f, i.floor t = f * i.unit ∧ IsGreatest {n | i.Begins n ∧ n ≤ t / i.unit} f := by
    have hsum := Int.ediv_mul_add_emod t i.unit
    refine ⟨t / i.unit, ?_, ⟨hall _, le_rfl⟩, fun n hn => hn.2⟩
    rw [hfloor]
    omega
  cases i with
  | minutely => exact hunits rfl fun _ => trivial
  | hourly => exact hunits rfl fun _ => trivial
  | daily => exact ⟨_, rfl, isGreatest_floorDate daily ⟨t / microsPerDay⟩⟩
  | weekly => exact ⟨_, rfl, isGreatest_floorDate weekly ⟨t / microsPerDay⟩⟩
  | monthly => exact ⟨_, rfl, isGreatest_floorDate monthly ⟨t / microsPerDay⟩⟩
  | yearly => exact ⟨_, rfl, isGreatest_floorDate yearly ⟨t / microsPerDay⟩⟩

/-- The floor of a time is the last grid point at or before it. -/
theorem isGreatest_floor (i : Interval) (t : Int) :
    IsGreatest {g | i.IsGridPoint g ∧ g ≤ t} (i.floor t) := by
  obtain ⟨f, hf, ⟨hbegins, hle⟩, hgreatest⟩ := i.exists_floor_eq t
  rw [hf]
  refine ⟨⟨⟨f, hbegins, rfl⟩, (Int.le_ediv_iff_mul_le i.unit_pos).mp hle⟩, ?_⟩
  rintro g ⟨⟨n, hn, rfl⟩, hnt⟩
  have hnf : n ≤ f := hgreatest ⟨hn, (Int.le_ediv_iff_mul_le i.unit_pos).mpr hnt⟩
  exact Int.mul_le_mul_of_nonneg_right hnf i.unit_pos.le

theorem isGridPoint_floor (i : Interval) (t : Int) : i.IsGridPoint (i.floor t) :=
  (i.isGreatest_floor t).1.1

theorem floor_le (i : Interval) (t : Int) : i.floor t ≤ t := (i.isGreatest_floor t).1.2

theorem IsGridPoint.le_floor (hg : i.IsGridPoint g) (hgt : g ≤ t) : g ≤ i.floor t :=
  (i.isGreatest_floor t).2 ⟨hg, hgt⟩

theorem IsGridPoint.floor_eq (hg : i.IsGridPoint g) : i.floor g = g :=
  le_antisymm (i.floor_le g) (hg.le_floor le_rfl)

theorem floor_mono (i : Interval) (htu : t ≤ u) : i.floor t ≤ i.floor u :=
  (i.isGridPoint_floor t).le_floor (le_trans (i.floor_le t) htu)

/-- Every interval begins one of its spans with the first day of year 1. -/
theorem isGridPoint_zero (i : Interval) : i.IsGridPoint 0 := by
  refine ⟨0, ?_, by simp⟩
  cases i with
  | weekly => rfl
  | monthly => exact ⟨_, .first, rfl⟩
  | yearly => exact ⟨_, .first, rfl, rfl⟩
  | _ => trivial

theorem inYears_floor (i : Interval) (h : inYears t = true) : inYears (i.floor t) = true := by
  simp only [inYears, Bool.and_eq_true, decide_eq_true_eq] at h ⊢
  exact ⟨i.isGridPoint_zero.le_floor h.1, lt_of_le_of_lt (i.floor_le t) h.2⟩

/-! ## The next point -/

/-- A grid has no last point. -/
theorem exists_begins_gt (i : Interval) (d : Int) : ∃ n, d < n ∧ i.Begins n := by
  have hyear : ∃ n, d < n ∧ yearly.Begins n :=
    ⟨_, (yearOf_bounds d).2, yearly_begins_iff.mpr ⟨_, rfl⟩⟩
  cases i with
  | yearly => exact hyear
  | monthly =>
    obtain ⟨n, hdn, c, hshows, hday, _⟩ := hyear
    exact ⟨n, hdn, c, hshows, hday⟩
  | weekly =>
    refine ⟨7 * (d / 7 + 1), by omega, ?_⟩
    show 7 * (d / 7 + 1) % 7 = 0
    omega
  | _ => exact ⟨d + 1, by omega, trivial⟩

/-- After every time comes a next grid point. -/
theorem exists_isLeast_after (i : Interval) (t : Int) :
    ∃ next, IsLeast {g | i.IsGridPoint g ∧ t < g} next := by
  obtain ⟨n, htn, hn⟩ := i.exists_begins_gt (t / i.unit)
  have hafter : t < n * i.unit := (Int.ediv_lt_iff_lt_mul i.unit_pos).mp htn
  obtain ⟨next, hnext, hleast⟩ := Int.exists_least_of_bdd
    (P := fun g => i.IsGridPoint g ∧ t < g) ⟨t, fun g hg => hg.2.le⟩ ⟨_, ⟨n, hn, rfl⟩, hafter⟩
  exact ⟨next, hnext, fun g hg => hleast g hg⟩

/-- The grid points after a time are those after its floor. -/
theorem IsGridPoint.floor_lt_iff (hg : i.IsGridPoint g) : i.floor t < g ↔ t < g := by
  have hle := i.floor_le t
  refine ⟨fun h => ?_, fun h => by omega⟩
  by_contra hge
  have hbefore := hg.le_floor (t := t) (by omega)
  omega

/-! ## Finer and coarser intervals -/

/-- An interval and a later one along minutes, hours, days, months and years, or along minutes,
hours, days and weeks. -/
inductive Refines : Interval → Interval → Prop where
  | hours : Refines minutely hourly
  | days : Refines hourly daily
  | weeks : Refines daily weekly
  | months : Refines daily monthly
  | years : Refines monthly yearly
  | trans {fine middle coarse : Interval} : Refines fine middle → Refines middle coarse →
      Refines fine coarse

variable {fine coarse : Interval}

/-- The grid of a coarser interval is part of the grid of a finer one. -/
theorem IsGridPoint.of_refines (h : Refines fine coarse) (hg : coarse.IsGridPoint g) :
    fine.IsGridPoint g := by
  induction h with
  | hours =>
    obtain ⟨n, _, rfl⟩ := hg
    refine ⟨n * 60, trivial, ?_⟩
    simp only [unit, microsPerHour]
    ring
  | days =>
    obtain ⟨n, _, rfl⟩ := hg
    refine ⟨n * 24, trivial, ?_⟩
    simp only [unit, microsPerDay]
    ring
  | weeks =>
    obtain ⟨n, _, rfl⟩ := hg
    exact ⟨n, trivial, rfl⟩
  | months =>
    obtain ⟨n, _, rfl⟩ := hg
    exact ⟨n, trivial, rfl⟩
  | years =>
    obtain ⟨n, ⟨c, hshows, hday, _⟩, rfl⟩ := hg
    exact ⟨n, ⟨c, hshows, hday⟩, rfl⟩
  | trans _ _ ihfine ihcoarse => exact ihfine (ihcoarse hg)

/-- The floor of a coarser interval is reached through a finer one. -/
theorem floor_floor (h : Refines fine coarse) (t : Int) :
    coarse.floor (fine.floor t) = coarse.floor t := by
  have hcoarse := coarse.isGridPoint_floor t
  refine le_antisymm (coarse.floor_mono (fine.floor_le t)) ?_
  -- the coarse floor is a point of the fine grid, and so at or before the fine floor
  have hbefore := (hcoarse.of_refines h).le_floor (coarse.floor_le t)
  exact hcoarse.le_floor hbefore

end Interval
end EventQuery
