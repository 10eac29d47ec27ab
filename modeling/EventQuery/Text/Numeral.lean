import EventQuery.Binary64.Reader
import EventQuery.Text.Blank
import EventQuery.Text.Digit

/-!
# EventQuery.Text.Numeral

Numbers written in text. Blanks around a numeral do not count, a single `_` may stand between two
digits, and digits of any script are read. `Decimal notation` is what all readers of reals share:
a sign, digits with at most one point, and an exponent.
-/

namespace EventQuery
namespace Numeral

/-- The longest integer that is read. -/
def maxDigits : Nat := 4300

/-- Whether the head of a text is a digit `0` to `9`. -/
def startsWithDigit : List Char → Bool
  | c :: _ => c.isDigit
  | [] => false

/-- Takes out each `_` between two digits; any other `_` is refused. The flag says whether a digit
stands right before. -/
def dropJoints : Bool → List Char → Option (List Char)
  | _, [] => some []
  | afterDigit, '_' :: rest =>
    if afterDigit && startsWithDigit rest then dropJoints false rest else none
  | _, c :: rest => (dropJoints c.isDigit rest).map (c :: ·)

/-- A numeral in plain digits, without the blanks around it and the joints inside. -/
def plain? (s : String) : Option (List Char) :=
  dropJoints false ((Text.strip Text.isBlank s.toList).map Text.plainDigit)

/-- Cuts a sign off; true for a minus. -/
def splitSign : List Char → Bool × List Char
  | '-' :: rest => (true, rest)
  | '+' :: rest => (false, rest)
  | s => (false, s)

/-- A nonempty run of digits of acceptable length. -/
def digits? (s : List Char) : Option Nat :=
  if s.isEmpty || !s.all Char.isDigit || maxDigits < s.length then none else some (Text.numberOf s)

/-- An integer. -/
def integer? (s : String) : Option Int := do
  let (negative, digits) := splitSign (← plain? s)
  let n ← digits? digits
  some (if negative then -n else n)

/-! ## Decimal notation -/

/-- The exponent after the digits of a decimal: nothing, or `e` with an optional sign and
digits. -/
def exponent? : List Char → Option Int
  | [] => some 0
  | c :: rest =>
    if c == 'e' || c == 'E' then
      let (negative, digits) := splitSign rest
      if digits.isEmpty || !digits.all Char.isDigit then none
      else
        let n : Int := Text.numberOf digits
        some (if negative then -n else n)
    else none

/-- Digits with at most one point among, before or after them, and an exponent: the coefficient
and the power of ten. -/
def decimal? (s : List Char) : Option (Nat × Int) :=
  let whole := s.takeWhile Char.isDigit
  let (fraction, rest) :=
    match s.dropWhile Char.isDigit with
    | '.' :: rest => (rest.takeWhile Char.isDigit, rest.dropWhile Char.isDigit)
    | rest => ([], rest)
  if whole.isEmpty && fraction.isEmpty then none
  else (exponent? rest).map fun e => (Text.numberOf (whole ++ fraction), e - fraction.length)

/-- A real in plain digits: decimal notation, or one of the words for infinity and NaN in any
case, after an optional sign. -/
def realOf? (s : List Char) : Option Binary64 :=
  let (negative, body) := splitSign s
  let word := String.ofList (body.map Char.toLower)
  if word == "inf" || word == "infinity" then some (.infinity negative)
  else if word == "nan" then some .nan
  else (decimal? body).map fun (c, e) => Binary64.ofDecimal negative c e

/-- A real number. -/
def real? (s : String) : Option Binary64 := (plain? s).bind realOf?

end Numeral
end EventQuery
