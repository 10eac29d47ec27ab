import EventQuery.Proofs.History.Reference
import EventQuery.Proofs.Rollup.Week

/-!
# EventQuery.Proofs.Rollup.Agreement

What the views of a day, a week and a month show of one date. Each of them finds the average of a
date under the same name (`averageOn`), however it comes to the date: the week by going back from
the reference date (`week_values`), the month by going forwards from its first day
(`month_values`). `views_agree` compares them where they meet, and with those of later dates.
-/

namespace EventQuery

open Calendar

/-! ## The dates of a month -/

namespace Date

theorem monthStart_def (d : Date) :
    d.monthStart = Civil.date ⟨d.civil.year, d.civil.month, 1⟩ := rfl

theorem monthStart_eq {d e : Date} (hyear : e.civil.year = d.civil.year)
    (hmonth : e.civil.month = d.civil.month) : e.monthStart = d.monthStart := by
  rw [monthStart_def, monthStart_def, hyear, hmonth]

/-- A date is as many days after the start of its month as it says. -/
theorem addDays_monthStart (d : Date) : d.monthStart.addDays (d.civil.day - 1 : Nat) = d := by
  obtain ⟨-, hday, -⟩ := d.civil.isValid_iff.mp d.isValid_civil
  have hdays := congrArg Date.days d.date_civil
  rw [Civil.date] at hdays
  rw [addDays, eq_comm, eq_mk_iff, monthStart_def, Civil.date]
  dsimp only at hdays ⊢
  omega

theorem day_le_day {d e : Date} (hyear : e.civil.year = d.civil.year)
    (hmonth : e.civil.month = d.civil.month) (hle : e.days ≤ d.days) :
    e.civil.day ≤ d.civil.day := by
  have hd := congrArg Date.days d.addDays_monthStart
  have he := congrArg Date.days e.addDays_monthStart
  obtain ⟨-, hday, -⟩ := d.civil.isValid_iff.mp d.isValid_civil
  rw [monthStart_eq hyear hmonth] at he
  simp only [addDays] at hd he
  omega

end Date

namespace Rollup

variable {rollup : Record} {d e reference later : Date}

theorem getElem?_monthDays (hyear : e.civil.year = d.civil.year)
    (hmonth : e.civil.month = d.civil.month) (hle : e.days ≤ d.days) :
    (monthDays d)[e.civil.day - 1]? = some e := by
  obtain ⟨-, hday, -⟩ := e.civil.isValid_iff.mp e.isValid_civil
  have hle' := Date.day_le_day hyear hmonth hle
  rw [monthDays, List.getElem?_map, List.getElem?_range (by omega), Option.map_some,
    ← Date.monthStart_eq hyear hmonth, e.addDays_monthStart]

theorem getLast?_monthDays (d : Date) : (monthDays d).getLast? = some d := by
  have hlast := getElem?_monthDays (e := d) rfl rfl le_rfl
  rw [List.getLast?_eq_getElem?]
  rwa [monthDays, List.length_map, List.length_range]

/-- The dates of a month up to one come first among those up to a later one. -/
theorem monthDays_isPrefix (hyear : later.civil.year = d.civil.year)
    (hmonth : later.civil.month = d.civil.month) (hle : d.days ≤ later.days) :
    monthDays d <+: monthDays later := by
  have hday := Date.day_le_day hyear.symm hmonth.symm hle
  have htake : monthDays d = (monthDays later).take d.civil.day := by
    rw [monthDays, monthDays, ← List.map_take, List.take_range, Nat.min_eq_left hday,
      Date.monthStart_eq hyear hmonth]
  rw [htake]
  exact List.take_prefix _ _

/-! ## Views -/

/-- The average of a date. -/
def averageOn (rollup : Record) (d : Date) : Binary64 :=
  number (rollup.value (key "avg" (dayText d)))

/-- The dates of a week, the oldest first. -/
def weekDates (reference : Date) : List Date :=
  ((List.range weekDays).map fun n : Nat => reference.addDays (-n)).reverse

section Numeric

variable (hnumeric : ∀ k, IsNumeric (rollup.value k))

include hnumeric

theorem week_values (reference : Date) (hweek : weekDays ≤ reference.days + 1) :
    ∃ w, week rollup reference = .ok w ∧
      w.values = (weekDates reference).map (averageOn rollup) := by
  refine ⟨_, week_of_numeric hweek fun _ _ k _ => hnumeric k, ?_⟩
  rw [weekOf, weekDates, List.map_reverse, List.map_map, List.map_map]
  rfl

theorem month_values (reference : Date) :
    ∃ m, month rollup reference = .ok m ∧
      m.values = (monthDays reference).map (averageOn rollup) := by
  refine ⟨_, viewOf_eq_ok (fun k => entry_of_isNumeric (hnumeric k)) _ _, ?_⟩
  rw [List.map_map]
  rfl

theorem hours_average (reference : Date) :
    ∃ h, hours rollup reference = .ok h ∧ h.average = averageOn rollup reference :=
  ⟨_, hours_eq_ok (fun k => entry_of_isNumeric (hnumeric k)) _, rfl⟩

end Numeric

theorem getElem?_weekDates {j : Nat} (hj : j < weekDays) :
    (weekDates reference)[j]? = some (reference.addDays (-(6 - j : Nat))) := by
  rw [weekDates, List.getElem?_reverse (by simpa using hj), List.getElem?_map]
  simp only [List.length_map, List.length_range, weekDays] at hj ⊢
  rw [List.getElem?_range (by omega)]
  rfl

theorem getLast?_weekDates (reference : Date) :
    (weekDates reference).getLast? = some reference := by
  rw [weekDates, List.getLast?_reverse]
  simp [weekDays, List.range_succ_eq_map, Date.addDays]

/-- The week that ends a day later has one date more at its end and one less at its start. -/
theorem dropLast_weekDates (reference : Date) :
    (weekDates (reference.addDays 1)).dropLast = (weekDates reference).tail := by
  rw [weekDates, weekDates, List.dropLast_reverse, List.tail_reverse]
  simp [weekDays, List.range_succ_eq_map, Date.addDays]
  omega

/-- The views of a date show one average for it, the last of the week and of the month. Where a
week lies in the month, both show the same numbers; a week that ends a day later is the same but for
its first day, and a month up to a later date goes on from here. -/
theorem views_agree (rollup : Record) (reference : Date) (c : Civil)
    (hnumeric : ∀ k, IsNumeric (rollup.value k)) (hshows : Shows reference.days c)
    (hyear : 1000 ≤ c.year) :
    ∃ w m h next, week rollup reference = .ok w ∧ month rollup reference = .ok m ∧
      hours rollup reference = .ok h ∧ week rollup (reference.addDays 1) = .ok next ∧
      w.values.getLast? = some h.average ∧ m.values.getLast? = some h.average ∧
      (∀ j < weekDays, ∀ e, Shows (reference.days - (6 - j : Nat)) e → e.year = c.year →
        e.month = c.month → ∃ x, w.values[j]? = some x ∧ m.values[e.day - 1]? = some x) ∧
      next.values.dropLast = w.values.tail ∧
      ∀ later e, Shows later.days e → e.year = c.year → e.month = c.month →
        reference.days ≤ later.days →
        ∃ m', month rollup later = .ok m' ∧ m.values <+: m'.values := by
  have hlate := weekDays_le_days hshows hyear
  obtain rfl := shows_iff.mp hshows
  obtain ⟨w, hw, hwvalues⟩ := week_values hnumeric reference (by omega)
  have htomorrow : (reference.addDays 1).days = reference.days + 1 := rfl
  obtain ⟨next, hnext, hnextvalues⟩ :=
    week_values hnumeric (reference.addDays 1) (by omega)
  obtain ⟨m, hm, hmvalues⟩ := month_values hnumeric reference
  obtain ⟨h, hh, haverage⟩ := hours_average hnumeric reference
  refine ⟨w, m, h, next, hw, hm, hh, hnext, ?week, ?month, ?days, ?shifted, ?longer⟩
  case week => rw [hwvalues, List.getLast?_map, getLast?_weekDates, Option.map_some, haverage]
  case month => rw [hmvalues, List.getLast?_map, getLast?_monthDays, Option.map_some, haverage]
  case days =>
    intro j hj e he hsameYear hsameMonth
    obtain rfl := shows_iff.mp he
    refine ⟨averageOn rollup (reference.addDays (-(6 - j : Nat))), ?_, ?_⟩
    · rw [hwvalues, List.getElem?_map, getElem?_weekDates hj, Option.map_some]
    · have hdate : reference.addDays (-(6 - j : Nat)) = ⟨reference.days - (6 - j : Nat)⟩ := rfl
      have hplace := getElem?_monthDays hsameYear hsameMonth (by dsimp only; omega)
      rw [hmvalues, List.getElem?_map, hplace, Option.map_some, hdate]
  case shifted =>
    rw [hwvalues, hnextvalues, ← List.map_dropLast, dropLast_weekDates, List.map_tail]
  case longer =>
    intro later e he hsameYear hsameMonth hle
    obtain rfl := shows_iff.mp he
    obtain ⟨m', hm', hmvalues'⟩ := month_values hnumeric later
    refine ⟨m', hm', ?_⟩
    rw [hmvalues, hmvalues']
    exact (monthDays_isPrefix hsameYear hsameMonth hle).map _

/-- Three views of the last of a February, and the week that ends on the first of March. -/
theorem views_agree_leapDay :
    ∃ w m h next, week leapDay (Civil.mk 2024 2 29).date = .ok w ∧
      month leapDay (Civil.mk 2024 2 29).date = .ok m ∧
      hours leapDay (Civil.mk 2024 2 29).date = .ok h ∧
      week leapDay (Civil.mk 2024 3 1).date = .ok next ∧
      w.values.getLast? = some h.average ∧ m.values.getLast? = some h.average ∧
      (∃ x, w.values[0]? = some x ∧ m.values[22]? = some x) ∧
      next.values.dropLast = w.values.tail := by
  have hshows : Shows (Civil.mk 2024 2 29).date.days ⟨2024, 2, 29⟩ :=
    shows_iff.mpr (by decide +kernel)
  have hfirst : Shows ((Civil.mk 2024 2 29).date.days - (6 - 0 : Nat)) ⟨2024, 2, 23⟩ :=
    shows_iff.mpr (by decide +kernel)
  have hnext : (Civil.mk 2024 2 29).date.addDays 1 = (Civil.mk 2024 3 1).date := by decide +kernel
  obtain ⟨w, m, h, next, hw, hm, hh, hnextView, hweek, hmonth, hdays, hshifted, -⟩ :=
    views_agree leapDay _ ⟨2024, 2, 29⟩ isNumeric_leapDay hshows (by decide)
  rw [hnext] at hnextView
  exact ⟨w, m, h, next, hw, hm, hh, hnextView, hweek, hmonth,
    hdays 0 (by decide) _ hfirst rfl rfl, hshifted⟩

end Rollup
end EventQuery
