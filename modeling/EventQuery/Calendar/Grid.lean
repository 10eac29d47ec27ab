import EventQuery.Calendar.Instant

/-!
# EventQuery.Calendar.Grid

Intervals of the calendar. The grid of an interval is the instants at the start of each minute,
hour, day, week (on Monday), month or year in UTC; `Interval.floor` is the last grid point at or
before an instant, and `Interval.label` names a grid point.
-/

namespace EventQuery

inductive Interval where
  | minutely | hourly | daily | weekly | monthly | yearly
  deriving DecidableEq

namespace Interval

open Calendar

def all : List Interval := [minutely, hourly, daily, weekly, monthly, yearly]

def name : Interval → String
  | minutely => "minutely"
  | hourly => "hourly"
  | daily => "daily"
  | weekly => "weekly"
  | monthly => "monthly"
  | yearly => "yearly"

def ofName? (s : String) : Option Interval := all.find? (·.name == s)

theorem ofName?_name (i : Interval) : ofName? i.name = some i := by cases i <;> decide

/-- The first day of the span of days that holds a date. -/
def floorDate : Interval → Date → Date
  | weekly, d => d.weekStart
  | monthly, d => d.monthStart
  | yearly, d => d.yearStart
  | _, d => d

/-- The last grid point at or before an instant. -/
def floor (i : Interval) (instant : Int) : Int :=
  match i with
  | minutely => instant - instant % microsPerMinute
  | hourly => instant - instant % microsPerHour
  | i => (i.floorDate ⟨instant / microsPerDay⟩).days * microsPerDay

def monthNames : List String :=
  ["Jan", "Feb", "Mar", "Apr", "May", "Jun", "Jul", "Aug", "Sep", "Oct", "Nov", "Dec"]

def monthName (month : Nat) : String := (monthNames[month - 1]?).getD ""

/-- The name of a grid point: `14-Mar-2026:10:00` to the minute, `14-Mar-2026` to the day,
`Mar-2026` to the month and `2026` to the year. The year has no zeros in front. -/
def label (i : Interval) (start : Int) : String :=
  let t := DateTime.utc start
  let c := t.date.civil
  let year := toString c.year
  let month := monthName c.month ++ "-" ++ year
  let day := padded 2 c.day ++ "-" ++ month
  match i with
  | minutely | hourly => day ++ ":" ++ padded 2 t.hour ++ ":" ++ padded 2 t.minute
  | daily | weekly => day
  | monthly => month
  | yearly => year

end Interval
end EventQuery
