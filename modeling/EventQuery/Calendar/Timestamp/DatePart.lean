import EventQuery.Calendar.Date

/-!
# EventQuery.Calendar.Timestamp.DatePart

The numbers of a date in the order in which they were written. Some are known to be the year or the
month; `DatePart.resolve?` finds out what the others are.
-/

namespace EventQuery
namespace Timestamp

/-- What a number of a date is known to be. -/
inductive DateRole where
  | year | month
  deriving DecidableEq

/-- A number of a date. -/
structure DatePart where
  value : Nat
  role : Option DateRole := none

namespace DatePart

def isYear (p : DatePart) : Bool := p.role == some .year

def isMonth (p : DatePart) : Bool := p.role == some .month

/-- The value of the part that is known to be the year. -/
def year? (parts : List DatePart) : Option Nat := (parts.find? isYear).map value

/-- The value of the part that is known to be the month. -/
def month? (parts : List DatePart) : Option Nat := (parts.find? isMonth).map value

/-- Adds a part at the end. There is one year and one month. -/
def add? (parts : List DatePart) (p : DatePart) : Option (List DatePart) :=
  if p.role.isSome && parts.any (·.role == p.role) then none else some (parts ++ [p])

/-- The days of the month that is known, in a leap year unless the year is known; without a month,
31. -/
def daysOfMonth (parts : List DatePart) : Nat :=
  match month? parts with
  | none => 31
  | some month =>
    Calendar.monthLength (match year? parts with | some year => year | none => 2000) month

/-- A year of two digits lies in the years 1976 to 2075. -/
def fullYear (n : Nat) : Nat := if n < 76 then 2000 + n else if n < 100 then 1900 + n else n

/-- What is known of a date. -/
structure Known where
  year : Option Nat := none
  month : Option Nat := none
  day : Option Nat := none

/-- The largest number that can be a day. -/
def lastDay : Nat := 31

/-- What one part stands for. -/
def resolveOne (a : DatePart) : Known :=
  match a.role with
  | some .year => { year := a.value }
  | some .month => { month := a.value }
  | none => if lastDay < a.value then { year := a.value } else { day := a.value }

/-- A month beside another number. -/
def besideMonth (month other : DatePart) : Known :=
  if other.isYear || lastDay < other.value then { year := other.value, month := month.value }
  else { month := month.value, day := other.value }

/-- What two parts stand for: the year is known by its size, and a month comes before a day. -/
def resolveTwo (a b : DatePart) : Known :=
  if a.isMonth then besideMonth a b
  else if b.isMonth then besideMonth b a
  else if lastDay < a.value then { year := a.value, month := b.value }
  else if lastDay < b.value then { year := b.value, month := a.value }
  else { month := a.value, day := b.value }

/-- What three parts stand for. With year and month known the third is the day. A known month is
followed by the day unless a year shows by its size; after any other number that is no year comes
the month, if that number is too large to be one itself. -/
def resolveThree (a b c : DatePart) : Known :=
  let date (year month day : DatePart) : Known := ⟨year.value, month.value, day.value⟩
  match [a, b, c].findIdx? isYear, [a, b, c].findIdx? isMonth with
  | some 0, some 1 => date a b c
  | some 0, some _ => date a c b
  | some 1, some 0 => date b a c
  | some 1, some _ => date b c a
  | some _, some 0 => date c a b
  | some _, some _ => date c b a
  | none, some 0 => if lastDay < b.value then date b a c else date c a b
  | none, some 1 => if lastDay < a.value then date a b c else date c b a
  | none, some _ => if lastDay < b.value then date b c a else date a c b
  | _, none =>
    if lastDay < a.value || a.isYear then date a b c
    else if 12 < a.value then date c b a
    else date c a b

/-- The date that parts stand for; there are at most three. -/
def resolve? (parts : List DatePart) : Option Known :=
  let date? : Option Known :=
    match parts with
    | [] => some {}
    | [a] => some (resolveOne a)
    | [a, b] => some (resolveTwo a b)
    | [a, b, c] => some (resolveThree a b c)
    | _ => none
  date?.map fun date =>
    if (year? parts).isSome then date else { date with year := date.year.map fullYear }

end DatePart
end Timestamp
end EventQuery
