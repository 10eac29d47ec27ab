import EventQuery.Decimal

/-!
# EventQuery.Decimal.Arithmetic

Sums and quotients of decimals with 28 significant digits. A result that fits is exact and keeps
the place of its last digit; one that does not is rounded, a half going to the even digit.
-/

namespace EventQuery
namespace Decimal

def significantDigits : Nat := 28

/-- Cuts a coefficient down to the significant digits. -/
def rounded (negative : Bool) (coefficient : Nat) (exponent : Int) : Decimal :=
  let surplus := (Nat.toDigits 10 coefficient).length - significantDigits
  if surplus = 0 then finite negative coefficient exponent
  else
    let step := tenTo surplus
    let below := coefficient / step
    let excess := 2 * (coefficient % step)
    let nearest :=
      if excess < step then below
      else if step < excess then below + 1
      else below + below % 2
    if nearest = tenTo significantDigits then
      finite negative (tenTo (significantDigits - 1)) (exponent + surplus + 1)
    else finite negative nearest (exponent + surplus)

def ofInt (n : Int) : Decimal := finite (decide (n < 0)) n.natAbs 0

/-- The sum, in the place of the finer of both last digits. Infinities of opposite signs have
none. -/
def add? : Decimal → Decimal → Option Decimal
  | nan, _ | _, nan => some nan
  | infinite a, infinite b => if a == b then some (infinite a) else none
  | infinite a, finite .. | finite .., infinite a => some (infinite a)
  | finite sa a ea, finite sb b eb =>
    let exponent := min ea eb
    let scaled (negative : Bool) (c : Nat) (e : Int) : Int :=
      let n : Int := (c * tenTo (e - exponent).toNat : Nat)
      if negative then -n else n
    let total := scaled sa a ea + scaled sb b eb
    some (rounded (if total = 0 then sa && sb else decide (total < 0)) total.natAbs exponent)

/-- Takes zeros off the end of a coefficient until its last digit stands in a given place. -/
def trimZeros (ideal : Int) : Nat → Nat → Int → Nat × Int
  | 0, coefficient, exponent => (coefficient, exponent)
  | steps + 1, coefficient, exponent =>
    if exponent < ideal && coefficient % 10 = 0 then
      trimZeros ideal steps (coefficient / 10) (exponent + 1)
    else (coefficient, exponent)

/-- The quotient by a positive count. -/
def divideBy (d : Decimal) (count : Nat) : Decimal :=
  match d with
  | finite negative coefficient exponent =>
    if coefficient = 0 then d
    else
      let length (n : Nat) := (Nat.toDigits 10 n).length
      let shift := length count + significantDigits + 1 - length coefficient
      let quotient := coefficient * tenTo shift / count
      if coefficient * tenTo shift % count = 0 then
        let (c, e) := trimZeros exponent shift quotient (exponent - shift)
        rounded negative c e
      else rounded negative (if quotient % 5 = 0 then quotient + 1 else quotient) (exponent - shift)
  | d => d

end Decimal
end EventQuery
