import EventQuery.Calendar.Date
import EventQuery.Calendar.Timestamp.Token
import EventQuery.Text.Pieces

/-!
# EventQuery.Calendar.Timestamp.Short

Short dates: with the year last (`03/14/2026`, `03/2026`, `Mar 2026`), a year alone, and quarters
(`2026Q1`). Each of them stands for the first day that it names.
-/

namespace EventQuery
namespace Timestamp
namespace Short

/-- The number that a run of digits of a given length writes. -/
def number? (length : Nat) (s : List Char) : Option Nat :=
  if s.length = length then Numeral.digits? s else none

/-- One or two digits. -/
def upToTwo? (s : List Char) : Option Nat := (number? 1 s).or (number? 2 s)

/-- The marks between the numbers of a date; NUL is one of them. -/
def isDateMark (c : Char) : Bool :=
  c == ' ' || c == '/' || c == '-' || c == '.' || c == '\x00'

/-- Month, day and year. A first number above 12 is the day. The day may be missing, but then the
month has two digits and no point follows it. The year is at least 1000. -/
def yearLast? (s : List Char) : Option Civil := do
  let civil : Civil ←
    match Text.pieces isDateMark s with
    | [first, second, year] => do
      let (month, day) := (← upToTwo? first, ← upToTwo? second)
      let year ← number? 4 year
      some (if month ≤ 12 then ⟨year, month, day⟩ else ⟨year, day, month⟩)
    | [month, year] =>
      if s.contains '.' then none else some ⟨← number? 4 year, ← number? 2 month, 1⟩
    | _ => none
  if 1000 ≤ civil.year then some civil else none

/-- A year alone: four characters that write an integer. -/
def year? (s : List Char) : Option Civil :=
  if s.length = 4 then (Numeral.integer? (String.ofList s)).map fun year => ⟨year, 1, 1⟩ else none

/-- A year of two characters, which counts from 2000. A character that is no digit takes a hundred
years away. -/
def shortYear (tens ones : Char) : Int :=
  let part (weight : Int) (c : Char) : Int := ((number? 1 [c]).map (weight * ·)).getD (-100)
  2000 + part 10 tens + part 1 ones

/-- The first day of a quarter. -/
def quarterOf? (quarter : Char) (year : Int) : Option Civil := do
  let quarter ← number? 1 [quarter]
  if 1 ≤ quarter && quarter ≤ 4 then some ⟨year, 3 * quarter - 2, 1⟩ else none

/-- A quarter: `1Q26` or `26Q1`, with a year of two or four digits and perhaps a `-` between. The
first `Q` after the first character counts, and where it stands decides which of them it is. -/
def quarter? (s : List Char) : Option Civil := do
  if s.any fun c => 128 ≤ c.toNat then none
  else
    match (s.drop 1).findIdx? (· == 'Q'), s with
    | some 0, [q, _, y, z] => quarterOf? q (shortYear y z)
    | some 0, [q, _, '-', y, z] => quarterOf? q (shortYear y z)
    | some 0, [q, _, w, x, y, z] => quarterOf? q (← number? 4 [w, x, y, z])
    | some 0, [q, _, '-', w, x, y, z] => quarterOf? q (← number? 4 [w, x, y, z])
    | some 1, [y, z, _, q] => quarterOf? q (shortYear y z)
    | some 1, [y, '-', _, _, q] => quarterOf? q (shortYear y '-')
    | some 2, [y, z, '-', _, q] => quarterOf? q (shortYear y z)
    | some 3, [w, x, y, z, _, q] => quarterOf? q (← number? 4 [w, x, y, z])
    | some 4, [w, x, y, z, '-', _, q] => quarterOf? q (← number? 4 [w, x, y, z])
    | _, _ => none

/-- The first three letters of a month and, after spacing, a year of four digits. -/
def monthYear? (s : List Char) : Option Civil := do
  let month ← Token.month? (s.take 3)
  let rest := s.drop 3
  let year := rest.dropWhile Text.isSpacing
  if year.length < rest.length then
    some ⟨← number? 4 (year.map Text.plainDigit), month, 1⟩
  else none

/-- Reads a date of the calendar; letters count in any case. -/
def read? (s : List Char) : Option Date := do
  let raised := Text.raised s
  let civil ← (((yearLast? s).or (year? raised)).or (quarter? raised)).or (monthYear? raised)
  if civil.isValid && 1 ≤ civil.year then some civil.date else none

end Short
end Timestamp
end EventQuery
