import EventQuery.Calendar.Date

/-!
# EventQuery.Calendar.Instant

Times as microseconds since the first midnight of year 1. A `DateTime` is what a clock shows and,
if known, how far that clock is ahead of UTC; its `instant` is the time in UTC. A time without an
offset is read as UTC.
-/

namespace EventQuery

structure DateTime where
  /-- Microseconds shown by the clock. -/
  wall : Int
  /-- Seconds that the clock is ahead of UTC. -/
  offset : Option Int
  deriving DecidableEq

namespace Calendar

def microsPerSecond : Int := 1000000
def microsPerMinute : Int := 60 * microsPerSecond
def microsPerHour : Int := 60 * microsPerMinute
def microsPerDay : Int := 24 * microsPerHour

/-- The instant from which epoch times count, the first midnight of 1970. -/
def epoch : Int := (Civil.date ⟨1970, 1, 1⟩).days * microsPerDay

/-- Whether microseconds since year 1 lie in the years 1 to 9999. -/
def inYears (micros : Int) : Bool := 0 ≤ micros && micros < Date.endOfYears * microsPerDay

end Calendar

open Calendar

namespace DateTime

/-- The time in UTC. -/
def instant (t : DateTime) : Int := t.wall - t.offset.getD 0 * microsPerSecond

/-- An instant on a UTC clock. -/
def utc (instant : Int) : DateTime := ⟨instant, some 0⟩

/-- Midnight of a date, without an offset. -/
def ofDate (d : Date) : DateTime := ⟨d.days * microsPerDay, none⟩

/-- The date that the clock shows. -/
def date (t : DateTime) : Date := ⟨t.wall / microsPerDay⟩

/-- Microseconds since midnight on the clock. -/
def timeOfDay (t : DateTime) : Int := t.wall % microsPerDay

def hour (t : DateTime) : Int := t.timeOfDay / microsPerHour
def minute (t : DateTime) : Int := t.timeOfDay % microsPerHour / microsPerMinute
def second (t : DateTime) : Int := t.timeOfDay % microsPerMinute / microsPerSecond
def microsecond (t : DateTime) : Int := t.timeOfDay % microsPerSecond

/-- The same date at another time of day, with the same offset. -/
def withDate (t : DateTime) (d : Date) : DateTime :=
  { t with wall := d.days * microsPerDay + t.timeOfDay }

/-! ## Text -/

/-- `+02:00`, with seconds only when there are some. -/
def offsetText (seconds : Int) : String :=
  let sign := if seconds < 0 then "-" else "+"
  let n : Int := seconds.natAbs
  let base := sign ++ padded 2 (n / 3600) ++ ":" ++ padded 2 (n / 60 % 60)
  if n % 60 = 0 then base else base ++ ":" ++ padded 2 (n % 60)

/-- `2026-03-14T10:15:30`, with a fraction of six digits only when there is one. -/
def wallText (t : DateTime) : String :=
  let clock := padded 2 t.hour ++ ":" ++ padded 2 t.minute ++ ":" ++ padded 2 t.second
  let fraction := if t.microsecond = 0 then "" else "." ++ padded 6 t.microsecond
  t.date.text ++ "T" ++ clock ++ fraction

/-- The clock and the offset, if there is one. -/
def text (t : DateTime) : String := t.wallText ++ (t.offset.map offsetText).getD ""

/-- As `text`, with `Z` for the offset of UTC. -/
def shortText (t : DateTime) : String := if t.offset = some 0 then t.wallText ++ "Z" else t.text

end DateTime
end EventQuery
