import EventQuery.Decimal

/-!
# EventQuery.Quantity

The exact meaning of a number of any kind. Integers, doubles and decimals are compared through
their quantities, so no comparison rounds.
-/

namespace EventQuery

inductive Quantity where
  | undefined
  | infinite (negative : Bool)
  | finite (value : Rat)
  deriving DecidableEq

def Binary64.quantity (x : Binary64) : Quantity :=
  if x.isNaN then .undefined
  else if x.isInfinite then .infinite x.isNegative
  else .finite x.toRat

def Decimal.quantity (d : Decimal) : Quantity :=
  match d with
  | .nan => .undefined
  | .infinite negative => .infinite negative
  | .finite .. => .finite d.toRat

namespace Quantity

def ofRats (a b : Rat) : Ordering := if a < b then .lt else if b < a then .gt else .eq

/-- The order of two quantities; what is undefined has none. -/
def compare? : Quantity → Quantity → Option Ordering
  | undefined, _ | _, undefined => none
  | finite a, finite b => some (ofRats a b)
  | infinite a, infinite b => some (if a == b then .eq else if a then .lt else .gt)
  | infinite a, finite _ => some (if a then .lt else .gt)
  | finite _, infinite b => some (if b then .gt else .lt)

def same (a b : Quantity) : Bool := a.compare? b == some .eq

end Quantity
end EventQuery
