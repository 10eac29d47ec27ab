import EventQuery.Text.Numeral

/-!
# EventQuery.Decimal

Decimal numbers as a store sends them: the digits are kept as written, so `1.50` and `1.5` differ
in text and agree in value.
-/

namespace EventQuery

inductive Decimal where
  | nan
  | infinite (negative : Bool)
  | finite (negative : Bool) (coefficient : Nat) (exponent : Int)
  deriving DecidableEq

namespace Decimal

/-- Reads decimal notation, or a word for infinity or NaN. -/
def ofText? (s : String) : Option Decimal :=
  let (negative, body) := Numeral.splitSign s.toList
  let word := String.ofList (body.map Char.toLower)
  if word == "inf" || word == "infinity" then some (infinite negative)
  else if word == "nan" then some nan
  else (Numeral.decimal? body).map fun (c, e) => finite negative c e

/-- The exact value of a finite decimal; zero for the others. -/
def toRat : Decimal → Rat
  | finite negative coefficient exponent =>
    let magnitude := mkRat (coefficient * tenTo exponent.toNat) (tenTo (-exponent).toNat)
    if negative then -magnitude else magnitude
  | _ => 0

/-- The nearest double. -/
def toBinary64 : Decimal → Binary64
  | nan => .nan
  | infinite negative => .infinity negative
  | finite negative coefficient exponent => .ofDecimal negative coefficient exponent

/-- Positional unless the exponent is positive or the first digit stands more than six places
behind the point; otherwise scientific with `E` and a signed exponent. -/
def text : Decimal → String
  | nan => "NaN"
  | infinite negative => if negative then "-Infinity" else "Infinity"
  | finite negative coefficient exponent =>
    let digits := Nat.toDigits 10 coefficient
    let whole : Int := exponent + digits.length
    let point : Int := if exponent ≤ 0 && -6 < whole then whole else 1
    let body :=
      if point ≤ 0 then '0' :: '.' :: List.replicate (-point).toNat '0' ++ digits
      else if digits.length ≤ point.toNat then
        digits ++ List.replicate (point.toNat - digits.length) '0'
      else digits.take point.toNat ++ '.' :: digits.drop point.toNat
    let power := whole - point
    let tail :=
      if power = 0 then []
      else 'E' :: (if power < 0 then '-' else '+') :: Nat.toDigits 10 power.natAbs
    String.ofList ((if negative then ['-'] else []) ++ body ++ tail)

end Decimal
end EventQuery
