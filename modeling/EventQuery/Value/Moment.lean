import EventQuery.Calendar.Epoch
import EventQuery.Calendar.Timestamp
import EventQuery.Failure

/-!
# EventQuery.Value.Moment

Values read as times: text as a timestamp, a number as milliseconds since 1970, a date as its
midnight. Windows, filters and buckets all read times here.
-/

namespace EventQuery

/-- The time that a value denotes, if it is one. -/
def Value.moment? : Value → Option DateTime
  | .int n => (Epoch.ofMillis? n).map .utc
  | .float x => if x.isFinite then (Epoch.ofDouble? x).map .utc else none
  | .text s => Timestamp.read? s
  | .date d => some (.ofDate d)
  | .datetime t => some t
  | _ => none

/-- The same instant on a UTC clock, which shows the years 1 to 9999 only. -/
def DateTime.inUtc (t : DateTime) : Outcome DateTime :=
  if Calendar.inYears t.instant then .ok (.utc t.instant) else faulty .yearOutOfRange

/-- A value as a time in UTC; none if it is not a time. -/
def Value.utc? (v : Value) : Outcome (Option DateTime) :=
  match v.moment? with
  | none => .ok none
  | some t => t.inUtc.map some

end EventQuery
