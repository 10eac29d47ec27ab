import EventQuery.Calendar.Instant
import EventQuery.Power
import EventQuery.Text.Digit

/-!
# EventQuery.Calendar.Timestamp.Standard

Timestamps with the largest unit first, such as `2026-03-14T10:15:30.5+02:00`. Units may be left
out from the right, and those are then their least value. Each reader of a part takes it from the
front of the text and returns the rest.
-/

namespace EventQuery
namespace Timestamp
namespace Standard

open Calendar

/-- The blanks among the characters of ASCII. -/
def isSpace (c : Char) : Bool := c == ' ' || ('\t' ≤ c && c ≤ '\r')

/-- At least `least` and at most `most` digits; a longer run is cut at `most`. -/
def digits? (least most : Nat) (s : List Char) : Option (Nat × List Char) :=
  let taken := (s.take most).takeWhile Char.isDigit
  if taken.length < least then none else some (Text.numberOf taken, s.drop taken.length)

/-! ## Date -/

/-- The year, in four digits. Where there are no four digits the year is 0 and nothing is taken. A
`-` may stand before the year; it counts only as the very first character of the text. -/
def year? (s : List Char) : Option (Int × List Char) :=
  let bare := s.dropWhile isSpace
  let bare := if bare.head? == some '-' then bare.drop 1 else bare
  if bare.isEmpty then none
  else
    let (year, rest) := (digits? 4 4 bare).getD (0, bare)
    some (if s.head? == some '-' then -year else year, rest)

/-- The marks that may stand between the parts of a date. -/
def isDateMark (c : Char) : Bool := c == '-' || c == '/' || c == '.' || c == '\\' || c == ' '

/-- Month and day: both in two digits each, or each after the same mark in one or two digits. The
day may be missing after a mark and a month, and both may. -/
def monthDay? (s : List Char) : Option (Nat × Nat × List Char) :=
  match s with
  | [] => some (1, 1, [])
  | c :: rest =>
    if isDateMark c then do
      let (month, rest) ← digits? 1 2 rest
      match rest with
      | [] => some (month, 1, [])
      | d :: rest =>
        if d != c then none
        else
          let (day, rest) ← digits? 1 2 rest
          some (month, day, rest)
    else do
      let (month, rest) ← digits? 2 2 s
      let (day, rest) ← digits? 2 2 rest
      some (month, day, rest)

/-! ## Time of day -/

/-- Whole seconds since midnight, and the digits of a fraction of a second. -/
structure Clock where
  seconds : Nat := 0
  fraction : List Char := []

/-- Hours, minutes and seconds below 24, 60 and 60. -/
def clock? (hour minute second : Nat) (fraction : List Char) : Option Clock :=
  if hour < 24 && minute < 60 && second < 60 then
    some ⟨3600 * hour + 60 * minute + second, fraction⟩
  else none

/-- Whether a part of the time of day follows: with colons, after another one; without, as a
digit. -/
def nextPart (colons : Bool) : List Char → Option (List Char)
  | c :: rest => if colons then (if c == ':' then some rest else none)
                 else (if c.isDigit then some (c :: rest) else none)
  | [] => none

/-- Hours, perhaps minutes, perhaps seconds, perhaps a fraction of at most eighteen digits. Parts
are two digits each, or one or two with colons between them. -/
def time? (s : List Char) : Option (Clock × List Char) := do
  let (hour, rest) ← digits? 1 2 s
  let colons := rest.head? == some ':'
  if !colons && s.length < rest.length + 2 then none
  else
    let least := if colons then 1 else 2
    match nextPart colons rest with
    | none => some (← clock? hour 0 0 [], rest)
    | some rest =>
      let (minute, rest) ← digits? least 2 rest
      match nextPart colons rest with
      | none => some (← clock? hour minute 0 [], rest)
      | some rest =>
        let (second, rest) ← digits? least 2 rest
        match rest with
        | '.' :: after =>
          let fraction := (after.take 18).takeWhile Char.isDigit
          some (← clock? hour minute second fraction, after.drop fraction.length)
        | rest => some (← clock? hour minute second [], rest)

/-! ## Offset -/

/-- Seconds of an offset below a day: hours, and perhaps minutes after a colon or without one. -/
def offset? (s : List Char) : Option (Int × List Char) := do
  let (hours, rest) ← digits? 1 2 s
  let (minutes, rest) ←
    if rest.isEmpty then some (0, rest)
    else digits? 1 2 (if rest.head? == some ':' then rest.drop 1 else rest)
  if hours < 24 && minutes < 60 then some (3600 * hours + 60 * minutes, rest) else none

/-- What may follow the time: nothing, a `Z` for UTC, or an offset, with blanks around it. -/
def zone? (s : List Char) : Option (Option Int) := do
  let (offset, rest) ←
    match s.dropWhile isSpace with
    | 'Z' :: rest => some (some 0, rest)
    | '+' :: rest => (offset? rest).map fun (seconds, rest) => (some seconds, rest)
    | '-' :: rest => (offset? rest).map fun (seconds, rest) => (some (-seconds), rest)
    | rest => some (none, rest)
  if rest.all isSpace then some offset else none

/-! ## Whole text -/

/-- A text in this notation. -/
structure Reading where
  date : Date
  clock : Clock := {}
  offset : Option Int := none

/-- Reads a text; the date must be one of the calendar. -/
def read? (s : List Char) : Option Reading := do
  let (year, rest) ← year? s
  let (month, day, rest) ← monthDay? rest
  let civil : Civil := ⟨year, month, day⟩
  if !civil.isValid then none
  else
    match rest with
    | [] => some ⟨civil.date, {}, none⟩
    | c :: rest =>
      if c == 'T' || c == ' ' then do
        let (clock, rest) ← time? rest
        some ⟨civil.date, clock, ← zone? rest⟩
      else none

namespace Reading

/-- The time, to the microsecond; further digits are dropped. -/
def time (r : Reading) : DateTime :=
  ⟨r.date.days * microsPerDay + r.clock.seconds * microsPerSecond
    + Text.fractionOf 6 r.clock.fraction, r.offset⟩

/-- Nanoseconds that the clock shows, counted from the first midnight of 1970. -/
def nanos (r : Reading) : Int :=
  (r.date.days * microsPerDay - epoch) * 1000
    + (r.clock.seconds * 1000000000 + Text.fractionOf 9 r.clock.fraction)

/-- A fraction of seven digits or more is kept in nanoseconds, and then a signed word of 64 bits
must hold the time, both as the clock shows it and in UTC. -/
def fits (r : Reading) : Bool :=
  let inWord (nanos : Int) : Bool := nanos.natAbs < twoTo 63
  r.clock.fraction.length ≤ 6 ||
    (inWord r.nanos && inWord (r.nanos - r.offset.getD 0 * 1000000000))

end Reading
end Standard
end Timestamp
end EventQuery
