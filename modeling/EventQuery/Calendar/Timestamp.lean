import EventQuery.Calendar.Timestamp.Loose
import EventQuery.Calendar.Timestamp.Short
import EventQuery.Calendar.Timestamp.Standard

/-!
# EventQuery.Calendar.Timestamp

Timestamps in text. Of three notations the first that a text is in counts: the standard one, with
the largest unit first; a short date; and words. The parts that are missing are their least value,
except that a time without an offset stays without one.
-/

namespace EventQuery
namespace Timestamp

/-- Whether a text is a number below 1000, which is too short for a year. One that starts with a
zero may still be a date. -/
def isSmallNumber (s : List Char) : Bool :=
  match Numeral.realOf? (Text.strip Standard.isSpace s) with
  | some x => s.head? != some '0' && x.less (.ofInt 1000)
  | none => false

/-- Reads a timestamp. -/
def read? (text : String) : Option DateTime :=
  let s := text.toList
  match Standard.read? s with
  | some reading => if reading.fits then some reading.time else none
  | none =>
    if isSmallNumber s then none
    else
      match Short.read? s with
      | some date => some (.ofDate date)
      | none => Loose.read? s

end Timestamp
end EventQuery
