import EventQuery.Calendar.Instant
import EventQuery.Calendar.Timestamp.DatePart
import EventQuery.Calendar.Timestamp.Token

/-!
# EventQuery.Calendar.Timestamp.Loose

Timestamps in words, such as `Sat, 14 Mar 2026 10:15 am UTC`. The tokens of the text are taken from
left to right; each of them, with those it belongs to, adds to the fields found so far. A reader of
tokens returns the fields and how many more tokens it took, or nothing if they make no sense.
-/

namespace EventQuery
namespace Timestamp
namespace Loose

open Calendar

/-- What a text has said so far. -/
structure Fields where
  parts : List DatePart := []
  /-- The day of the week, from Monday as zero. -/
  weekday : Option Nat := none
  hour : Option Nat := none
  minute : Option Nat := none
  second : Option Nat := none
  micro : Option Nat := none
  /-- The name of a time zone. -/
  zone : Option Token := none
  /-- Seconds ahead of UTC. -/
  offset : Option Int := none

namespace Fields

def addPart? (f : Fields) (p : DatePart) : Option Fields :=
  (DatePart.add? f.parts p).map fun parts => { f with parts := parts }

/-- Adds digits to the date; more than two are a year. -/
def addDigits? (f : Fields) (t : Token) : Option Fields := do
  f.addPart? ⟨← Numeral.digits? t, if 2 < t.length then some .year else none⟩

/-- Adds an amount to the date; more than 100 is a year. -/
def addAmount? (f : Fields) (a : Token.Amount) : Option Fields :=
  f.addPart? ⟨a.whole, if a.isAtMost 100 then none else some .year⟩

def addMonth? (f : Fields) (month : Nat) : Option Fields := f.addPart? ⟨month, some .month⟩

/-- Adds a month by its name or a part by its digits. -/
def addNameOrDigits? (f : Fields) (t : Token) : Option Fields :=
  match t.month? with
  | some month => f.addMonth? month
  | none => f.addDigits? t

/-- Sets seconds and their fraction. -/
def setSeconds? (f : Fields) (t : Token) : Option Fields := do
  let (second, micro) ← t.seconds?
  some { f with second := second, micro := micro }

/-- Sets minutes; a fraction of a minute sets the seconds. -/
def setMinutes (f : Fields) (a : Token.Amount) : Fields :=
  { f with minute := a.whole, second := if a.hasFraction then some a.sixtieths else none }

/-- Sets hours; a fraction of an hour sets the minutes. -/
def setHours (f : Fields) (a : Token.Amount) : Fields :=
  { f with hour := a.whole, minute := if a.hasFraction then some a.sixtieths else f.minute }

/-- Sets hours and minutes from two digits each. -/
def setClock? (f : Fields) (hour minute : Token) : Option Fields := do
  some { f with hour := ← Numeral.digits? hour, minute := ← Numeral.digits? minute }

end Fields

/-! ## Numbers -/

/-- Two or four digits after a whole date: hours, and minutes. -/
def bareClock? (t : Token) (f : Fields) : Option Fields :=
  if t.length = 2 then (Numeral.digits? t).map fun hour => { f with hour := some hour }
  else f.setClock? (t.take 2) (t.drop 2)

/-- Six digits: a date in two digits each if there is none yet, else a time of day, which may have a
fraction. -/
def sixDigits? (t : Token) (f : Fields) : Option Fields :=
  if f.parts.isEmpty && !t.contains '.' then do
    let f ← f.addDigits? (t.take 2)
    let f ← f.addDigits? ((t.drop 2).take 2)
    f.addDigits? (t.drop 4)
  else do
    let f ← f.setClock? (t.take 2) ((t.drop 2).take 2)
    f.setSeconds? (t.drop 4)

/-- Eight, twelve or fourteen digits: year, month and day, then hours and minutes, then seconds. -/
def compact? (t : Token) (f : Fields) : Option Fields := do
  let f ← f.addDigits? (t.take 4)
  let f ← f.addDigits? ((t.drop 4).take 2)
  let f ← f.addDigits? ((t.drop 6).take 2)
  if t.length = 8 then some f
  else
    let f ← f.setClock? ((t.drop 8).take 2) ((t.drop 10).take 2)
    if t.length = 12 then some f
    else (Numeral.digits? (t.drop 12)).map fun second => { f with second := some second }

/-- The label of a number and how many tokens it takes: right after the number, or after a blank.
Without such a label the number counts what comes after the label before it, which the last number
of a text may also have a blank before. -/
def label? (before after : List Token) : Option (Option Token.Label × Nat) :=
  let behind (t : Token) : Option (Option Token.Label × Nat) := t.label?.map fun l => (l.next?, 0)
  ((after.head?.bind Token.label?).map fun l => (some l, 1)).or <|
  (if after.head? == some [' '] then (after[1]?.bind Token.label?).map fun l => (some l, 2)
    else none).or <|
  (before.head?.bind behind).or <|
  if after.isEmpty && before.head? == some [' '] then before[1]?.bind behind else none

/-- Sets what a label says. -/
def labelled? (t : Token) (a : Token.Amount) (label : Option Token.Label) (f : Fields) :
    Option Fields :=
  match label with
  | some .hours => some (f.setHours a)
  | some .minutes => some (f.setMinutes a)
  | some .seconds => f.setSeconds? t
  | none => some f

/-- Hours, minutes after a colon, and perhaps seconds after another. -/
def colons? (a : Token.Amount) (minutes : Token) (after : List Token) (f : Fields) :
    Option (Fields × Nat) := do
  let f := ({ f with hour := some a.whole } : Fields).setMinutes (← minutes.amount?)
  match after with
  | [':'] :: seconds :: _ => (f.setSeconds? seconds).map (·, 4)
  | _ => some (f, 2)

/-- A part of a date, then perhaps a second and a third one, with the same mark between them. The
name of a month may stand for its number. -/
def marked? (t : Token) (mark : Token) (after : List Token) (f : Fields) :
    Option (Fields × Nat) := do
  let f ← f.addDigits? t
  match after with
  | [] => some (f, 1)
  | second :: rest =>
    if second.isFiller then some (f, 1)
    else
      let f ← f.addNameOrDigits? second
      match rest with
      | next :: rest =>
        if next != mark then some (f, 2)
        else
          match rest with
          | third :: _ => (f.addNameOrDigits? third).map (·, 4)
          | [] => none
      | [] => some (f, 2)

/-- A number on its own: an hour if half a day follows, else a part of the date. Right before a word
that is no filler it must be able to be a day. -/
def alone? (a : Token.Amount) (after : List Token) (f : Fields) : Option (Fields × Nat) :=
  match after with
  | [] => (f.addAmount? a).map (·, 0)
  | next :: rest =>
    if next.isFiller then
      match rest.head?.bind Token.half? with
      | some half => some ({ f with hour := some (half.hour a.whole) }, 2)
      | none => (f.addAmount? a).map (·, 1)
    else
      match (if a.whole < 24 then next.half? else none) with
      | some half => some ({ f with hour := some (half.hour a.whole) }, 1)
      | none =>
        if 1 ≤ a.whole && a.isAtMost (DatePart.daysOfMonth f.parts) then
          (f.addAmount? a).map (·, 0)
        else none

/-- Whether the digits of a number can be a time of day after a whole date: no colon and no label
follow. -/
def isBareClock (t : Token) (after : List Token) (f : Fields) : Bool :=
  f.parts.length == 3 && f.hour.isNone && (t.length == 2 || t.length == 4)
    && after.head? != some [':'] && (after.head?.bind Token.label?).isNone

/-- A number with the tokens that belong to it. -/
def number? (before : List Token) (t : Token) (after : List Token) (f : Fields) :
    Option (Fields × Nat) := do
  let a ← t.amount?
  if isBareClock t after f then (bareClock? t f).map (·, 0)
  else if t.length = 6 || (6 < t.length && t.findIdx? (· == '.') = some 6) then
    (sixDigits? t f).map (·, 0)
  else if t.length = 8 || t.length = 12 || t.length = 14 then (compact? t f).map (·, 0)
  else
    match label? before after with
    | some (label, taken) => (labelled? t a label f).map (·, taken)
    | none =>
      match after with
      | [':'] :: minutes :: rest => colons? a minutes rest f
      | [c] :: rest =>
        if c == '-' || c == '/' || c == '.' then marked? t [c] rest f else alone? a after f
      | _ => alone? a after f

/-! ## Words -/

/-- The name of a month, then perhaps day and year after the same mark, or a year after `of`. -/
def monthName? (month : Nat) (after : List Token) (f : Fields) : Option (Fields × Nat) := do
  let f ← f.addMonth? month
  match after with
  | [] => some (f, 0)
  | mark :: rest =>
    if mark == ['-'] || mark == ['/'] then
      match rest with
      | [] => none
      | second :: rest => do
        let f ← f.addDigits? second
        match rest with
        | next :: rest =>
          if next != mark then some (f, 2)
          else
            match rest with
            | third :: _ => (f.addDigits? third).map (·, 4)
            | [] => none
        | [] => some (f, 2)
    else
      match mark, rest with
      | [' '], joint :: [' '] :: year :: _ =>
        if joint.word != "of" then some (f, 0)
        else if year.all Char.isDigit then do
          let year ← Numeral.digits? year
          (f.addPart? ⟨DatePart.fullYear year, some .year⟩).map (·, 4)
        else some (f, 4)
      | _, _ => some (f, 0)

/-- Half a day after an hour of up to twelve. -/
def half? (half : Token.Half) (f : Fields) : Option Fields := do
  let hour ← f.hour
  if hour ≤ 12 then some { f with hour := some (half.hour hour) } else none

/-- Hours and minutes of an offset, in seconds, and how many tokens they take: four digits, up to
two digits, or digits on both sides of a colon. -/
def offsetParts? (after : List Token) : Option (Int × Nat) := do
  let seconds (hours minutes : Nat) : Int := 3600 * hours + 60 * minutes
  match after with
  | [] => none
  | t :: rest =>
    if t.length = 4 then
      some (seconds (← Numeral.digits? (t.take 2)) (← Numeral.digits? (t.drop 2)), 1)
    else
      match rest with
      | [':'] :: minutes :: _ =>
        some (seconds (← Numeral.digits? t) (← Numeral.digits? minutes), 3)
      | [':'] :: [] => none
      | _ => if t.length ≤ 2 then some (seconds (← Numeral.digits? t) 0, 1) else none

/-- An offset after its sign, and perhaps the name of its time zone in brackets. -/
def offset? (sign : Int) (after : List Token) (f : Fields) : Option (Fields × Nat) := do
  let (seconds, taken) ← offsetParts? after
  let f := { f with offset := some (sign * seconds) }
  match after.drop taken with
  | filler :: ['('] :: name :: [')'] :: _ =>
    if filler.isFiller && f.zone.isNone && 3 ≤ name.length && name.isZone then
      some ({ f with zone := some name }, taken + 4)
    else some (f, taken)
  | _ => some (f, taken)

/-- The name of a time zone. A sign after it starts an offset that counts from that zone to UTC, so
the other way; a name of UTC is then forgotten. -/
def zoneName? (t : Token) (after : List Token) (f : Fields) : Option (Fields × Nat) :=
  match after with
  | [] => some ({ f with zone := some t }, 0)
  | next :: rest =>
    match next.sign? with
    | none => some ({ f with zone := some t }, 0)
    | some sign =>
      (offset? (-sign) rest { f with zone := if t.isUtc then none else some t }).map
        fun (f, taken) => (f, taken + 1)

/-- Takes a token and those that belong to it. -/
def token? (before : List Token) (t : Token) (after : List Token) (f : Fields) :
    Option (Fields × Nat) :=
  if t.isNumber then number? before t after f
  else
    match t.weekday?, t.month?, t.half? with
    | some day, _, _ => some ({ f with weekday := some day }, 0)
    | _, some month, _ => monthName? month after f
    | _, _, some half => (half? half f).map (·, 0)
    | none, none, none =>
      if f.hour.isSome && f.zone.isNone && f.offset.isNone && t.isZone then zoneName? t after f
      else
        match f.hour, t.sign? with
        | some _, some sign => offset? sign after f
        | _, _ => if t.isFiller then some (f, 0) else none

/-! ## Whole text -/

/-- Takes all tokens. Those that were taken before are given from the last one back. -/
def fields? (before : List Token) (f : Fields) (tokens : List Token) : Option Fields :=
  match tokens with
  | [] => some f
  | t :: after =>
    match token? before t after f with
    | none => none
    | some (f, taken) =>
      fields? ((after.take taken).reverse ++ t :: before) f (after.drop taken)
termination_by tokens.length
decreasing_by
  simp only [List.length_drop, List.length_cons]
  omega

/-- The offset from UTC, if there is one. A zone whose offset is not known makes no time, unless it
is passed over. -/
def Fields.utcOffset? (f : Fields) (passOver : Bool) : Option (Option Int) :=
  if f.zone.any Token.isUtc then some (some 0)
  else
    match f.offset with
    | some seconds => if seconds.natAbs < 86400 then some (some seconds) else none
    | none => if f.zone.isSome && !passOver then none else some none

/-- The date, with January and the first for what is missing. A day of the week without a day moves
to the first such day on or after that date. -/
def Fields.date? (f : Fields) (known : DatePart.Known) : Option Date :=
  let civil : Civil := ⟨known.year.getD 1, known.month.getD 1, known.day.getD 1⟩
  if civil.isValid && civil.date.inYears then
    match f.weekday, known.day with
    | some weekday, none => some (civil.date.addDays ((weekday - civil.date.days) % 7))
    | _, _ => some civil.date
  else none

/-- The time of day in microseconds. -/
def Fields.timeOfDay? (f : Fields) : Option Int :=
  let hour := f.hour.getD 0
  let minute := f.minute.getD 0
  let second := f.second.getD 0
  if hour < 24 && minute < 60 && second < 60 then
    some (hour * microsPerHour + minute * microsPerMinute + second * microsPerSecond
      + f.micro.getD 0)
  else none

/-- Whether a text starts with a time of day: one or two digits of hours below 24, a colon, and two
digits of minutes below 60. -/
def startsWithClock (s : List Char) : Bool :=
  let hours := s.takeWhile Char.isDigit
  match s.drop hours.length with
  | ':' :: a :: b :: _ =>
    (hours.length == 1 || hours.length == 2) && a.isDigit && b.isDigit
      && Text.numberOf hours < 24 && Text.numberOf [a, b] < 60
  | _ => false

/-- Reads a text. It must name a part of the date or of the time; one that starts with a time of day
must name the whole date, and may then name any zone. -/
def read? (s : List Char) : Option DateTime := do
  let clockFirst := startsWithClock s
  let f ← fields? [] {} (Token.scan s)
  let known ← DatePart.resolve? f.parts
  let dated := known.year.isSome && known.month.isSome && known.day.isSome
  let named := !f.parts.isEmpty || f.hour.isSome || f.minute.isSome || f.second.isSome
  if !named || (clockFirst && !dated) then none
  else
    let date ← f.date? known
    let clock ← f.timeOfDay?
    some ⟨date.days * microsPerDay + clock, ← f.utcOffset? clockFirst⟩

end Loose
end Timestamp
end EventQuery
