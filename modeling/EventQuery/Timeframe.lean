import EventQuery.Json.Reader
import EventQuery.Value.Moment

/-!
# EventQuery.Timeframe

Timeframes and the windows they stand for. A timeframe is a pair of instants, or an expression
such as `previous_3_days` that is read against the clock: `this_n_unit` ends now and
`previous_n_unit` ends where it starts, each `n` units long. A window holds its start and not its
end.
-/

namespace EventQuery

structure Window where
  start : DateTime
  stop : DateTime
  deriving DecidableEq

namespace Timeframe

inductive Span where
  | seconds | minutes | hours | days | weeks | months | years
  deriving DecidableEq

namespace Span

def all : List Span := [seconds, minutes, hours, days, weeks, months, years]

def name : Span → String
  | seconds => "seconds"
  | minutes => "minutes"
  | hours => "hours"
  | days => "days"
  | weeks => "weeks"
  | months => "months"
  | years => "years"

def ofName? (s : String) : Option Span := all.find? (·.name == s)

theorem ofName?_name (s : Span) : ofName? s.name = some s := by cases s <;> decide

/-- The clock some spans earlier. Months and years keep the time of day and the day of the month,
or its last day. -/
def before (span : Span) (amount : Nat) (t : DateTime) : DateTime :=
  let earlier (micros : Int) : DateTime := { t with wall := t.wall - amount * micros }
  let months (n : Nat) : DateTime := t.withDate (t.date.civil.addMonths (-n)).date
  match span with
  | seconds => earlier Calendar.microsPerSecond
  | minutes => earlier Calendar.microsPerMinute
  | hours => earlier Calendar.microsPerHour
  | days => earlier Calendar.microsPerDay
  | weeks => earlier (7 * Calendar.microsPerDay)
  | Span.months => months amount
  | years => months (12 * amount)

end Span

/-! ## Relative timeframes -/

/-- `this` or `previous`, an amount as written, and a unit. -/
structure Relative where
  previous : Bool
  digits : List Char
  span : Span

/-- The parts of a relative expression. -/
def relative? (expression : String) : Option Relative :=
  let parts? (previous : Bool) (rest : List Char) : Option Relative :=
    let digits := rest.takeWhile Text.isDigit
    match rest.dropWhile Text.isDigit with
    | '_' :: unit =>
      if digits.isEmpty then none
      else (Span.ofName? (String.ofList unit)).map fun span => ⟨previous, digits, span⟩
    | _ => none
  match expression.toList with
  | 't' :: 'h' :: 'i' :: 's' :: '_' :: rest => parts? false rest
  | 'p' :: 'r' :: 'e' :: 'v' :: 'i' :: 'o' :: 'u' :: 's' :: '_' :: rest => parts? true rest
  | _ => none

/-- The window of some spans up to now, or of as many before those. -/
def Relative.window (r : Relative) (amount : Nat) (now : DateTime) : Window :=
  let start := r.span.before amount now
  if r.previous then ⟨r.span.before (2 * amount) now, start⟩ else ⟨start, now⟩

/-- Whether the clock shows one of the years 1 to 9999 at both ends. -/
def inYears (w : Window) : Bool := Calendar.inYears w.start.wall && Calendar.inYears w.stop.wall

/-- Reads a relative expression against the clock. -/
def resolveRelative (expression : String) (now : DateTime) : Outcome Window :=
  match relative? expression with
  | none => complain (.timeframe expression)
  | some r =>
    if Numeral.maxDigits < r.digits.length then faulty .numeralTooLong
    else
      let amount := Text.numberOf r.digits
      if amount = 0 then complain (.timeframeAmount expression)
      else
        let window := r.window amount now
        if inYears window then .ok window else complain (.timeframeRange expression)

/-! ## Absolute timeframes -/

/-- Reads one bound of an absolute timeframe. -/
def bound (fields : Record) (field : String) : Outcome DateTime :=
  match (Record.value fields field).text? with
  | none => complain (.boundMissing field)
  | some s =>
    if (Text.trimmed s).isEmpty then complain (.boundMissing field)
    else
      match Timestamp.read? s with
      | none => complain (.boundUnreadable field s)
      | some t => t.inUtc

/-- Reads a start and a later end. -/
def resolveAbsolute (fields : Record) : Outcome Window :=
  match bound fields "start" with
  | .error e => .error e
  | .ok start =>
    match bound fields "end" with
    | .error e => .error e
    | .ok stop =>
      if start.instant < stop.instant then .ok ⟨start, stop⟩ else complain .windowReversed

/-- Reads a timeframe in text: an object in JSON, or else a relative expression. -/
def resolveText (raw : String) (now : DateTime) : Outcome Window :=
  let text := Text.trimmed raw
  match text.toList with
  | '\x7b' :: _ =>
    match Json.read? text with
    | some (.object fields) => resolveAbsolute fields
    | _ => complain (.timeframeObject text)
  | _ => resolveRelative text now

/-- The window of a timeframe; none without a timeframe. -/
def resolve (timeframe : Value) (now : DateTime) : Outcome (Option Window) :=
  match timeframe with
  | .text s => if s.isEmpty then .ok none else (resolveText s now).map some
  | .object fields => (resolveAbsolute fields).map some
  | _ => .ok none

end Timeframe
end EventQuery
