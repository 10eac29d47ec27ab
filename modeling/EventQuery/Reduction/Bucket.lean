import EventQuery.Calendar.Grid
import EventQuery.Name
import EventQuery.Reduction.Basic
import EventQuery.Value.Moment

/-!
# EventQuery.Reduction.Bucket

Rows split by calendar intervals. The bucket of a row is the grid point at or before its time in
UTC; buckets come in ascending order and keep the order of their rows.
-/

namespace EventQuery

/-- The rows of one interval. -/
structure Bucket where
  /-- The grid point where the interval starts. -/
  start : Int
  rows : List Record

namespace Bucket

/-- The grid point of a time value. -/
def startOf (v : Value) (i : Interval) : Outcome Int :=
  if v.isNull then complain (.noTimestamp Name.timestampColumn)
  else
    match v.moment? with
    | none =>
      if v.isShowable then complain (.timestamp Name.timestampColumn v.shown)
      else faulty .numeralTooLong
    | some t => .ok (i.floor t.instant)

/-- The name of a grid point, which lies in the years 1 to 9999. -/
def label (start : Int) (i : Interval) : Outcome String :=
  if Calendar.inYears start then .ok (i.label start) else faulty .yearUnnamed

/-- Adds a row to the bucket with a given start, in a list of buckets in ascending order. -/
def add (start : Int) (row : Record) : List Bucket → List Bucket
  | [] => [⟨start, [row]⟩]
  | b :: rest =>
    if start < b.start then ⟨start, [row]⟩ :: b :: rest
    else if start = b.start then { b with rows := b.rows ++ [row] } :: rest
    else b :: add start row rest

/-- Splits rows after some that are split already. -/
def partitionFrom (i : Interval) (buckets : List Bucket) : List Record → Outcome (List Bucket)
  | [] => .ok buckets
  | row :: rest =>
    match startOf (Record.value row Name.timestampColumn) i with
    | .error e => .error e
    | .ok start => partitionFrom i (add start row buckets) rest

/-- Splits rows into buckets; every row must have a time. -/
def partition (rows : List Record) (i : Interval) : Outcome (List Bucket) :=
  partitionFrom i [] rows

/-- The label and the reduced value of each bucket. -/
def reduceAll (i : Interval) (a : Archetype) (target : Option String) (rank : Option Binary64) :
    List Bucket → Outcome (List Value)
  | [] => .ok []
  | b :: rest =>
    match label b.start i with
    | .error e => .error e
    | .ok name =>
      match Reduction.reduce b.rows a target rank with
      | .error e => .error e
      | .ok result =>
        (reduceAll i a target rank rest).map fun values =>
          .object [("interval", .text name), ("result", result)] :: values

/-- Splits rows by an interval and reduces each bucket. -/
def reduce (rows : List Record) (i : Interval) (a : Archetype) (target : Option String)
    (rank : Option Binary64) : Outcome Value :=
  match partition rows i with
  | .error e => .error e
  | .ok buckets => (reduceAll i a target rank buckets).map .array

end Bucket
end EventQuery
