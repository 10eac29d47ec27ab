import EventQuery.Binary64.Basic

/-!
# EventQuery.Binary64.Shortest

The decimal text of a double. `shortest` finds the fewest digits that read back as the same
double and, of those, the nearest to its value; `text` writes them. `rounded` and `general` are
the same with a fixed number of significant digits.

A decimal reads back when it lies between the midpoints to the two neighbouring places; the
midpoints themselves round to the even place. If any point of a decimal grid lies in that
interval, so does one of the two grid points beside the value, so only those are tried.
-/

namespace EventQuery
namespace Binary64

/-- The number of decimal digits of a natural number, one for zero. -/
def digitCount (n : Nat) : Nat := (Nat.toDigits 10 n).length

/-- The greatest `e` with `10 ^ e ≤ num / den`. -/
def decimalExponent (num den : Nat) : Int :=
  let guess : Int := (digitCount num : Int) - digitCount den
  if den * tenTo guess.toNat ≤ num * tenTo (-guess).toNat then guess else guess - 1

/-- The exponent of the leading decimal digit of the magnitude at a place. -/
def leadingExponent (place : Nat) : Int := decimalExponent (magnitude place) unitsPerOne

/-- The multiple of `10 ^ grid` that reads back as the place and is nearest to its magnitude, if
there is one; a tie goes to the even multiple. -/
def readsBackOn (place : Nat) (grid : Int) : Option Nat :=
  let scale := tenTo (-grid).toNat
  let step := 2 * unitsPerOne * tenTo grid.toNat
  let value := 2 * magnitude place * scale
  let low := (magnitude (place - 1) + magnitude place) * scale
  let high := (magnitude place + magnitude (place + 1)) * scale
  let fits (c : Nat) : Bool :=
    if place % 2 = 0 then low ≤ c * step && c * step ≤ high
    else low < c * step && c * step < high
  let below := value / step
  let above := below + 1
  match fits below, fits above with
  | false, false => none
  | true, false => some below
  | false, true => some above
  | true, true =>
    let excess := 2 * (value - below * step)
    if excess < step then some below
    else if step < excess then some above
    else some (below + below % 2)

/-- The exact decimal of the magnitude at a place, as a coefficient and an exponent. -/
def exact (place : Nat) : Nat × Int := (magnitude place * Nat.pow 5 1074, -1074)

/-- The shortest decimal that reads back as a place, as a coefficient and an exponent. Seventeen
digits always suffice, so the exact decimal is never needed. -/
def shortest (place : Nat) : Nat × Int :=
  let exponent := leadingExponent place
  let onGrid (k : Nat) : Option (Nat × Int) :=
    (readsBackOn place (exponent - k)).map fun c => (c, exponent - k)
  ((List.range 17).findSome? onGrid).getD (exact place)

/-- The magnitude at a place rounded to a number of significant digits; a tie goes to the even
digit. -/
def rounded (place digits : Nat) : Nat × Int :=
  let grid := leadingExponent place + 1 - digits
  let value := magnitude place * tenTo (-grid).toNat
  let step := unitsPerOne * tenTo grid.toNat
  let below := value / step
  let excess := 2 * (value - below * step)
  let nearest :=
    if excess < step then below
    else if step < excess then below + 1
    else below + below % 2
  (nearest, grid)

/-! ## Layout -/

/-- Decimal digits without trailing zeros, and the exponent of the first. -/
def leadingDigits (decimal : Nat × Int) : List Char × Int :=
  let digits := Nat.toDigits 10 decimal.1
  let exponent := decimal.2 + digits.length - 1
  ((digits.reverse.dropWhile (· == '0')).reverse, exponent)

/-- Digits with a decimal point after the place of `10 ^ 0`; a whole number has no point. -/
def positional (digits : List Char) (exponent : Int) : List Char :=
  if exponent < 0 then
    '0' :: '.' :: List.replicate (-exponent - 1).toNat '0' ++ digits
  else
    let whole := exponent.toNat + 1
    let padded := digits ++ List.replicate (whole - digits.length) '0'
    if digits.length ≤ whole then padded else padded.take whole ++ '.' :: padded.drop whole

/-- One digit before the point, and an exponent with its sign and at least two digits. -/
def scientific (digits : List Char) (exponent : Int) : List Char :=
  let fraction := digits.drop 1
  let power := Nat.toDigits 10 exponent.natAbs
  digits.take 1 ++ (if fraction.isEmpty then [] else '.' :: fraction)
    ++ ['e', if exponent < 0 then '-' else '+']
    ++ List.replicate (2 - power.length) '0' ++ power

/-- Text of a double from the text of its finite magnitude. -/
def signedText (finite : Nat → List Char) : Binary64 → String
  | nan => "nan"
  | signed negative place =>
    let body := if place.val = infinityPlace then "inf".toList else finite place.val
    String.ofList (if negative then '-' :: body else body)

/-- A whole number keeps a point and one zero. -/
def withPoint (digits : List Char) : List Char :=
  if digits.contains '.' then digits else digits ++ ['.', '0']

/-- The shortest text that reads back: positional from `1e-4` up to `1e16`, with a point always
kept, and scientific elsewhere. -/
def text : Binary64 → String :=
  signedText fun place =>
    if place = 0 then "0.0".toList
    else
      let (digits, exponent) := leadingDigits (shortest place)
      if -4 ≤ exponent && exponent < 16 then withPoint (positional digits exponent)
      else scientific digits exponent

/-- Six significant digits at most: positional from `1e-4` up to `1e6`, without a point when
whole, and scientific elsewhere. -/
def general : Binary64 → String :=
  signedText fun place =>
    if place = 0 then ['0']
    else
      let (digits, exponent) := leadingDigits (rounded place 6)
      if -4 ≤ exponent && exponent < 6 then positional digits exponent
      else scientific digits exponent

end Binary64
end EventQuery
