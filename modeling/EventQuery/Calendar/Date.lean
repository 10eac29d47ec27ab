/-!
# EventQuery.Calendar.Date

Dates of the proleptic Gregorian calendar. A date is the number of days since the first of January
of year 1, a Monday; `Date.civil` gives year, month and day, and `Civil.date` goes back.
-/

namespace EventQuery

structure Date where
  days : Int
  deriving DecidableEq

/-- A date by year, month (from 1) and day of the month (from 1). -/
structure Civil where
  year : Int
  month : Nat
  day : Nat
  deriving DecidableEq

namespace Calendar

def isLeap (year : Int) : Bool :=
  year % 4 == 0 && (year % 100 != 0 || year % 400 == 0)

/-- The lengths of the months of a year. -/
def monthLengths (year : Int) : List Nat :=
  [31, if isLeap year then 29 else 28, 31, 30, 31, 30, 31, 31, 30, 31, 30, 31]

def monthLength (year : Int) (month : Nat) : Nat := ((monthLengths year)[month - 1]?).getD 0

/-- Days from the first day of year 1 to the first day of a year. -/
def daysBeforeYear (year : Int) : Int :=
  let past := year - 1
  365 * past + past / 4 - past / 100 + past / 400

/-- Days of a year before a month. -/
def daysBeforeMonth (year : Int) (month : Nat) : Nat :=
  ((monthLengths year).take (month - 1)).foldl (· + ·) 0

/-- The year of a day, counted through blocks of 400, 100, 4 and 1 years; the last day of a leap
year belongs to the block before. -/
def yearOf (days : Int) : Int :=
  let rest400 := days % 146097
  let centuries := min (rest400 / 36524) 3
  let rest100 := rest400 - 36524 * centuries
  let rest4 := rest100 % 1461
  400 * (days / 146097) + 100 * centuries + 4 * (rest100 / 1461) + min (rest4 / 365) 3 + 1

/-- The month, from zero, and the day in it, from zero, of a day of a year. -/
def monthAndDay : List Nat → Nat → Nat × Nat
  | [], rest => (0, rest)
  | length :: lengths, rest =>
    if rest < length then (0, rest)
    else
      let (month, day) := monthAndDay lengths (rest - length)
      (month + 1, day)

end Calendar

namespace Civil

def isValid (c : Civil) : Bool :=
  1 ≤ c.month && c.month ≤ 12 && 1 ≤ c.day && c.day ≤ Calendar.monthLength c.year c.month

def date (c : Civil) : Date :=
  ⟨Calendar.daysBeforeYear c.year + Calendar.daysBeforeMonth c.year c.month + (c.day - 1)⟩

/-- The date some months later, or earlier; a day that the month reached does not have becomes its
last. -/
def addMonths (c : Civil) (months : Int) : Civil :=
  let index := 12 * c.year + (c.month - 1) + months
  let year := index / 12
  let month := (index % 12).toNat + 1
  ⟨year, month, min c.day (Calendar.monthLength year month)⟩

end Civil

namespace Date

def civil (d : Date) : Civil :=
  let year := Calendar.yearOf d.days
  let (month, day) :=
    Calendar.monthAndDay (Calendar.monthLengths year) (d.days - Calendar.daysBeforeYear year).toNat
  ⟨year, month + 1, day + 1⟩

/-- The number of days in the years 1 to 9999. -/
def endOfYears : Int := Calendar.daysBeforeYear 10000

/-- Whether a date lies in the years 1 to 9999. -/
def inYears (d : Date) : Bool := 0 ≤ d.days && d.days < endOfYears

def addDays (d : Date) (n : Int) : Date := ⟨d.days + n⟩

/-- The last Monday on or before a date. -/
def weekStart (d : Date) : Date := ⟨d.days - d.days % 7⟩

def monthStart (d : Date) : Date := ({ d.civil with day := 1 } : Civil).date

def yearStart (d : Date) : Date := ⟨Calendar.daysBeforeYear d.civil.year⟩

end Date

/-! ## Text -/

namespace Calendar

/-- A number in decimal with zeros in front up to a width, which counts the sign. -/
def padded (width : Nat) (n : Int) : String :=
  let digits := Nat.toDigits 10 n.natAbs
  let sign := if n < 0 then ['-'] else []
  String.ofList (sign ++ List.replicate (width - sign.length - digits.length) '0' ++ digits)

end Calendar

/-- `2026-03-14`, with four digits of the year. -/
def Civil.text (c : Civil) : String :=
  Calendar.padded 4 c.year ++ "-" ++ Calendar.padded 2 c.month ++ "-" ++ Calendar.padded 2 c.day

def Date.text (d : Date) : String := d.civil.text

end EventQuery
