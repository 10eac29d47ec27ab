import EventQuery.Binary64.Basic

/-!
# EventQuery.Binary64.Reader

Doubles read from decimals. The nearest double to `coefficient * 10 ^ exponent` is one exact
rounding; exponents far outside the range of doubles are cut off first, which changes no result.
-/

namespace EventQuery
namespace Binary64

/-- The double nearest to `coefficient * 10 ^ exponent`. A decimal whose leading digit stands
above `10 ^ 310` is infinite and one below `10 ^ -330` is zero, so neither needs its power of
ten. -/
def ofDecimal (negative : Bool) (coefficient : Nat) (exponent : Int) : Binary64 :=
  let leading := exponent + (Nat.toDigits 10 coefficient).length
  if coefficient = 0 || leading < -330 then round negative 0 1
  else if 310 < leading then infinity negative
  else round negative (coefficient * tenTo exponent.toNat) (tenTo (-exponent).toNat)

end Binary64
end EventQuery
