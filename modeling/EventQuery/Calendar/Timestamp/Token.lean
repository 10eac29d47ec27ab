import EventQuery.Text.Case
import EventQuery.Text.Letter
import EventQuery.Text.Numeral

/-!
# EventQuery.Calendar.Timestamp.Token

The tokens of a timestamp in words: numbers, words, blanks and other single characters. `Token.scan`
cuts a text into tokens; the rest of the module says what a token can mean. One token can mean
several things, such as `m`, which labels minutes and also fills a gap.
-/

namespace EventQuery
namespace Timestamp

abbrev Token := List Char

namespace Token

/-! ## Cutting -/

/-- The marks that can stand inside a token. -/
def isMark (c : Char) : Bool := c == '.' || c == ','

/-- Whether a character goes on with a token, given from its last character back to its first.
Digits go on with digits and letters with letters; a point goes on with both, and both with it. A
comma goes on with two digits or more and is followed by digits. -/
def goesOn (token : List Char) (c : Char) : Bool :=
  match token with
  | [] => false
  | last :: earlier =>
    if last == '.' then Text.isLetter c || c.isDigit || c == '.'
    else if last == ',' then c.isDigit || c == '.'
    else if last.isDigit then
      c.isDigit || c == '.' || (c == ',' && !earlier.isEmpty && token.all Char.isDigit)
    else Text.isLetter c || c == '.'

/-- Cuts a token before and after each mark. -/
def cutAtMarks (t : Token) : List Token := t.splitBy fun a b => !isMark a && !isMark b

/-- The tokens that a run of characters stands for. A run with marks is one number if it has no
letters, at most one point and no mark at its end; its comma is then a point. Other runs with marks
are cut at them. The letters looked for are those of `settled`. -/
def ofRun (run settled : Token) : List Token :=
  if run.isEmpty then []
  else if !run.any isMark then [run]
  else if settled.any Text.isLetter || 2 ≤ (run.filter (· == '.')).length
      || run.getLast?.any isMark then cutAtMarks run
  else if run.contains '.' then [run]
  else [run.map fun c => if c == ',' then '.' else c]

/-- Cuts a text into tokens, after a run that is still open, given from its last character back to
its first. The last letter of a text is not yet looked for in its run. -/
def cut (opened : List Char) : List Char → List Token
  | [] => ofRun opened.reverse (opened.drop 1)
  | c :: rest =>
    if goesOn opened c then cut (c :: opened) rest
    else
      ofRun opened.reverse opened ++
        if Text.isLetter c || c.isDigit then cut [c] rest
        else [if Text.isSpacing c then ' ' else c] :: cut [] rest

/-- The tokens of a text. Characters without meaning are dropped, digits of all scripts are read,
and every blank is a token of its own. -/
def scan (s : List Char) : List Token :=
  cut [] ((s.filter (· != '\x00')).map Text.plainDigit)

/-! ## Numbers -/

/-- A number in decimal: its digits as a whole number, and how many of them follow the point. -/
structure Amount where
  digits : Nat
  places : Nat

namespace Amount

def whole (a : Amount) : Nat := a.digits / tenTo a.places

/-- How many sixtieths of a unit the fraction holds. -/
def sixtieths (a : Amount) : Nat := 60 * (a.digits % tenTo a.places) / tenTo a.places

def hasFraction (a : Amount) : Bool := a.digits % tenTo a.places != 0

def isAtMost (a : Amount) (n : Nat) : Bool := a.digits ≤ n * tenTo a.places

end Amount

/-- The words for numbers that are not finite. -/
def endlessWords : List String := ["nan", "inf", "infinity"]

/-- A token in lower case. -/
def word (t : Token) : String := Text.lowered (String.ofList t)

/-- The amount that a token writes. -/
def amount? (t : Token) : Option Amount :=
  (Numeral.decimal? t).map fun (digits, exponent) => ⟨digits, (-exponent).toNat⟩

/-- Whether a token is read as a number, be it only to be refused. -/
def isNumber (t : Token) : Bool := (amount? t).isSome || endlessWords.contains (word t)

/-- Seconds with a fraction in microseconds; further digits are dropped. -/
def seconds? (t : Token) : Option (Nat × Nat) := do
  let whole := t.takeWhile (· != '.')
  let fraction := (t.drop (whole.length + 1)).take 6
  let seconds ← Numeral.digits? whole
  if fraction.all Char.isDigit then some (seconds, Text.fractionOf 6 fraction) else none

/-! ## Words -/

/-- The place in a table of the row that holds a word. -/
def rowOf? (table : List (List String)) (t : Token) : Option Nat :=
  table.findIdx? fun row => row.contains (word t)

def weekdays : List (List String) :=
  [["mon", "monday"], ["tue", "tuesday"], ["wed", "wednesday"], ["thu", "thursday"],
    ["fri", "friday"], ["sat", "saturday"], ["sun", "sunday"]]

/-- The day of the week, from Monday as zero. -/
def weekday? (t : Token) : Option Nat := rowOf? weekdays t

def months : List (List String) :=
  [["jan", "january"], ["feb", "february"], ["mar", "march"], ["apr", "april"], ["may"],
    ["jun", "june"], ["jul", "july"], ["aug", "august"], ["sep", "sept", "september"],
    ["oct", "october"], ["nov", "november"], ["dec", "december"]]

/-- The month, from January as one. -/
def month? (t : Token) : Option Nat := (rowOf? months t).map (· + 1)

/-- Half a day: before or after noon. -/
inductive Half where
  | morning | afternoon
  deriving DecidableEq

def half? (t : Token) : Option Half :=
  match word t with
  | "am" | "a" => some .morning
  | "pm" | "p" => some .afternoon
  | _ => none

/-- The hour of the day for an hour of a half; hours above twelve stay as they are. -/
def Half.hour (half : Half) (n : Nat) : Nat :=
  match half with
  | .morning => if n = 12 then 0 else n
  | .afternoon => if n < 12 then n + 12 else n

/-- What a label after or before a number says that it counts. -/
inductive Label where
  | hours | minutes | seconds
  deriving DecidableEq

def label? (t : Token) : Option Label :=
  match word t with
  | "h" | "hour" | "hours" => some .hours
  | "m" | "minute" | "minutes" => some .minutes
  | "s" | "second" | "seconds" => some .seconds
  | _ => none

/-- What the number after a labelled one counts. -/
def Label.next? : Label → Option Label
  | hours => some minutes
  | minutes => some seconds
  | seconds => none

def fillers : List String :=
  [" ", ".", ",", ";", "-", "/", "'", "at", "on", "and", "ad", "m", "t", "of", "st", "nd", "rd",
    "th"]

/-- Whether a token says nothing. -/
def isFiller (t : Token) : Bool := fillers.contains (word t)

/-- Whether a token is a name of UTC. -/
def isUtc (t : Token) : Bool := ["UTC", "GMT", "Z", "z"].contains (String.ofList t)

/-- Whether a token can name a time zone: at most five capitals, or a `z`. -/
def isZone (t : Token) : Bool := t.length ≤ 5 && (t.all Char.isUpper || isUtc t)

/-- The direction of an offset: ahead of UTC or behind. -/
def sign? (t : Token) : Option Int :=
  match t with
  | ['+'] => some 1
  | ['-'] => some (-1)
  | _ => none

end Token
end Timestamp
end EventQuery
