import EventQuery.Binary64.Reader
import EventQuery.Calendar.Instant

/-!
# EventQuery.Calendar.Epoch

Times as milliseconds since the first midnight of 1970. They must fit a signed word of 64 bits:
whole milliseconds as microseconds, others as nanoseconds.
-/

namespace EventQuery
namespace Epoch

open Calendar

def fitsWord (n : Int) : Bool := n.natAbs < twoTo 63

/-- The instant some whole milliseconds after 1970. -/
def ofMillis? (millis : Int) : Option Int :=
  if fitsWord (millis * 1000) then some (epoch + millis * 1000) else none

/-- A rational number rounded to a whole number; a half goes to the even neighbour. -/
def roundHalfEven (q : Rat) : Int :=
  let below := q.floor
  let excess := q - below
  if excess < 1 / 2 then below
  else if 1 / 2 < excess then below + 1
  else below + below % 2

/-- A rational number without its fraction. -/
def truncated (q : Rat) : Int := if q < 0 then q.ceil else q.floor

/-- Nanoseconds in the fraction of a millisecond. It is rounded to six places, and what the nearest
double times a million is above a whole number is dropped. -/
def nanosOfFraction (fraction : Rat) : Int :=
  let millionths := roundHalfEven (fraction * 1000000)
  let rounded := Binary64.ofDecimal (millionths < 0) millionths.natAbs (-6)
  truncated (rounded.mul (.ofInt 1000000)).toRat

/-- The instant a finite number of milliseconds after 1970, to the microsecond at or below. -/
def ofDouble? (millis : Binary64) : Option Int :=
  let whole := truncated millis.toRat
  let fraction := millis.toRat - whole
  if fraction = 0 then ofMillis? whole
  else
    let nanos := whole * 1000000 + nanosOfFraction fraction
    if fitsWord nanos then some (epoch + nanos / 1000) else none

end Epoch
end EventQuery
