import EventQuery.Calendar.Grid
import EventQuery.Failure

/-!
# EventQuery.Rollup

Views of a rollup: a document with one number for each statistic and bucket, under keys such as
`avg_2026-03`, `sum_2026-03-14` and `avg_2026-03-14_09`. A key that is missing or empty reads as
zero.
-/

namespace EventQuery
namespace Rollup

/-- What a view shows: values in order of time, and a summary. -/
structure View where
  values : List Binary64
  average : Binary64
  least : Binary64
  greatest : Binary64

inductive ViewType where
  | day | week | month
  deriving DecidableEq

namespace ViewType

def all : List ViewType := [day, week, month]

def name : ViewType → String
  | day => "day"
  | week => "week"
  | month => "month"

def ofName? (s : String) : Option ViewType := all.find? (·.name == s)

theorem ofName?_name (t : ViewType) : ofName? t.name = some t := by cases t <;> decide

end ViewType

/-! ## Entries -/

/-- `2026-03`, without zeros in front of the year. -/
def monthText (c : Civil) : String := toString c.year ++ "-" ++ Calendar.padded 2 c.month

/-- `2026-03-14`. -/
def dayText (d : Date) : String :=
  let c := d.civil
  monthText c ++ "-" ++ Calendar.padded 2 c.day

def key (statistic bucket : String) : String := statistic ++ "_" ++ bucket

/-- The number under a key. -/
def entry (rollup : Record) (key : String) : Outcome Binary64 :=
  let v := Record.value rollup key
  if v.isBlank then .ok .zero
  else
    match v with
    | .int n =>
      match Binary64.ofInt? n with
      | some x => .ok x
      | none => faulty .beyondDouble
    | .float x => .ok x
    | _ => complain (.rollupEntry key)

/-- The numbers under keys, in order. -/
def entries (rollup : Record) : List String → Outcome (List Binary64)
  | [] => .ok []
  | k :: rest =>
    match entry rollup k with
    | .error e => .error e
    | .ok x =>
      match entries rollup rest with
      | .error e => .error e
      | .ok xs => .ok (x :: xs)

/-! ## Week -/

/-- The statistics of one day. -/
structure Day where
  count : Binary64
  sum : Binary64
  average : Binary64
  least : Binary64
  greatest : Binary64

/-- Reads the statistics of a day, which must not lie before year 1. -/
def day (rollup : Record) (d : Date) : Outcome Day :=
  if d.days < 0 then faulty .beforeFirstDay
  else do
    let bucket := dayText d
    return {
      count := ← entry rollup (key "count" bucket)
      sum := ← entry rollup (key "sum" bucket)
      average := ← entry rollup (key "avg" bucket)
      least := ← entry rollup (key "min" bucket)
      greatest := ← entry rollup (key "max" bucket) }

/-- The statistics of some days up to a date, the newest first. -/
def daysUpTo (rollup : Record) (d : Date) : Nat → Outcome (List Day)
  | 0 => .ok []
  | n + 1 =>
    match day rollup d with
    | .error e => .error e
    | .ok first =>
      match daysUpTo rollup (d.addDays (-1)) n with
      | .error e => .error e
      | .ok others => .ok (first :: others)

/-- The sum of doubles from left to right. -/
def total (xs : List Binary64) : Binary64 := xs.foldl Binary64.add .zero

/-- The least of the numbers that are not zero, or zero when there is none below infinity. -/
def leastNonzero (xs : List Binary64) : Binary64 :=
  let least := xs.foldl (fun low x => if !x.isZero && x.less low then x else low) (.infinity false)
  if least.isFinite then least else .zero

/-- The greatest number, or zero when it is infinite. -/
def greatestOf (xs : List Binary64) : Binary64 :=
  let greatest := xs.foldl (fun high x => if high.less x then x else high) (.infinity true)
  if greatest.isFinite then greatest else .zero

/-- The average weighted by counts; zero when they add up to zero. -/
def weightedAverage (days : List Day) : Binary64 :=
  let count := total (days.map (·.count))
  if count.isZero then .zero else (total (days.map (·.sum))).div count

def weekDays : Nat := 7

/-- The week up to a date, the oldest day first. -/
def week (rollup : Record) (reference : Date) : Outcome View :=
  (daysUpTo rollup reference weekDays).map fun days => {
    values := (days.map (·.average)).reverse
    average := weightedAverage days
    least := leastNonzero (days.map (·.least))
    greatest := greatestOf (days.map (·.greatest)) }

/-! ## Month and day -/

/-- A view with the values under some keys and the summary of a bucket. -/
def viewOf (rollup : Record) (keys : List String) (bucket : String) : Outcome View := do
  let values ← entries rollup keys
  return {
    values
    average := ← entry rollup (key "avg" bucket)
    least := ← entry rollup (key "min" bucket)
    greatest := ← entry rollup (key "max" bucket) }

/-- The days of a month up to a date. -/
def monthDays (reference : Date) : List Date :=
  (List.range reference.civil.day).map fun (n : Nat) => reference.monthStart.addDays n

/-- The month up to a date. -/
def month (rollup : Record) (reference : Date) : Outcome View :=
  viewOf rollup ((monthDays reference).map fun d => key "avg" (dayText d))
    (monthText reference.civil)

def hourKey (bucket : String) (hour : Nat) : String :=
  key (key "avg" bucket) (Calendar.padded 2 hour)

/-- The hours of a date. -/
def hours (rollup : Record) (reference : Date) : Outcome View :=
  let bucket := dayText reference
  viewOf rollup ((List.range 24).map (hourKey bucket)) bucket

/-- The view of a type for a date. -/
def view (rollup : Record) (t : ViewType) (reference : Date) : Outcome View :=
  match t with
  | .day => hours rollup reference
  | .week => week rollup reference
  | .month => month rollup reference

/-- All parts of a view by name. -/
def View.toValue (v : View) : Value :=
  .object [("values", .array (v.values.map .float)),
    ("stats", .object [("avg", .float v.average), ("min", .float v.least),
      ("max", .float v.greatest)])]

end Rollup
end EventQuery
