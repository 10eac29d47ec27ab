import EventQuery.Power

/-!
# EventQuery.Binary64.Basic

Double precision numbers. A double is NaN, or a sign and a *place*: its position on the grid of
magnitudes, counted from zero. Order, neighbours and ties are questions about places, and the
value of a place is an exact rational (`toRat`), so each operation here is exact arithmetic
followed by one rounding (`nearest`).
-/

namespace EventQuery

/-- The place of infinity: the number of finite magnitudes. -/
def infinityPlace : Nat := 2047 * twoTo 52

inductive Binary64 where
  | nan
  | signed (negative : Bool) (place : Fin (infinityPlace + 1))
  deriving DecidableEq

namespace Binary64

/-- Magnitudes are whole numbers of this many parts of one. -/
def unitsPerOne : Nat := twoTo 1074

/-- The magnitude at a place, in units of `2 ^ -1074`. Below `2 ^ 53` the grid has step one;
after that each block of `2 ^ 52` places doubles the step. -/
def magnitude (place : Nat) : Nat :=
  if place < twoTo 53 then place
  else (twoTo 52 + place % twoTo 52) * twoTo (place / twoTo 52 - 1)

/-- The last place whose magnitude is at most `units`, with the step of the grid there. -/
def placeBelow (units : Nat) : Nat × Nat :=
  let shift := units.log2 - 52
  (shift * twoTo 52 + units / twoTo shift, twoTo shift)

/-- The place nearest to `num / den` units; a tie goes to the even place, and whatever is too
large goes to infinity. -/
def nearest (num den : Nat) : Fin (infinityPlace + 1) :=
  let (below, step) := placeBelow (num / den)
  let excess := 2 * (num - magnitude below * den)
  let place :=
    if excess < step * den then below
    else if step * den < excess then below + 1
    else below + below % 2
  ⟨min place infinityPlace, Nat.lt_succ_of_le (Nat.min_le_right _ _)⟩

def zero : Binary64 := .signed false ⟨0, by omega⟩

def infinity (negative : Bool) : Binary64 := .signed negative ⟨infinityPlace, by omega⟩

/-- The double nearest to the fraction `num / den` of one, with the given sign, which is kept
also when the result is zero. -/
def round (negative : Bool) (num den : Nat) : Binary64 :=
  .signed negative (nearest (num * unitsPerOne) den)

/-- The double nearest to a rational number. -/
def ofRat (q : Rat) : Binary64 := round (decide (q < 0)) q.num.natAbs q.den

def ofInt (n : Int) : Binary64 := ofRat n

def isNaN : Binary64 → Bool
  | nan => true
  | signed _ _ => false

def isInfinite : Binary64 → Bool
  | nan => false
  | signed _ place => place.val == infinityPlace

def isFinite (x : Binary64) : Bool := !x.isNaN && !x.isInfinite

def isNegative : Binary64 → Bool
  | nan => false
  | signed negative _ => negative

/-- Zero of either sign. -/
def isZero : Binary64 → Bool
  | nan => false
  | signed _ place => place.val == 0

/-- The double nearest to an integer, if that is finite. -/
def ofInt? (n : Int) : Option Binary64 :=
  let x := ofInt n
  if x.isFinite then some x else none

/-- The exact value of a finite double; zero for the others. -/
def toRat : Binary64 → Rat
  | nan => 0
  | signed negative place =>
    if place.val = infinityPlace then 0
    else mkRat (if negative then -magnitude place.val else magnitude place.val) unitsPerOne

/-! ## Order -/

/-- The place counted downwards for negative numbers: doubles that are not NaN are ordered as
their ranks are. -/
def rank : Binary64 → Int
  | nan => 0
  | signed negative place => if negative then -place.val else place.val

/-- Equality of values: the two zeros are equal and NaN equals nothing. -/
def same (x y : Binary64) : Bool := !x.isNaN && !y.isNaN && x.rank == y.rank

def less (x y : Binary64) : Bool := !x.isNaN && !y.isNaN && decide (x.rank < y.rank)

def atMost (x y : Binary64) : Bool := !x.isNaN && !y.isNaN && decide (x.rank ≤ y.rank)

/-! ## Arithmetic -/

def neg : Binary64 → Binary64
  | nan => nan
  | signed negative place => signed (!negative) place

/-- The sum: infinities of opposite signs have none, and a zero sum is negative only when both
terms are negative. -/
def add (x y : Binary64) : Binary64 :=
  if x.isNaN || y.isNaN then nan
  else if x.isInfinite then
    if y.isInfinite && x.isNegative != y.isNegative then nan else x
  else if y.isInfinite then y
  else
    let total := x.toRat + y.toRat
    if total = 0 then .signed (x.isNegative && y.isNegative) ⟨0, by omega⟩ else ofRat total

def sub (x y : Binary64) : Binary64 := add x y.neg

/-- The product: zero times infinity has none. -/
def mul (x y : Binary64) : Binary64 :=
  let negative := x.isNegative != y.isNegative
  if x.isNaN || y.isNaN then nan
  else if x.isInfinite || y.isInfinite then
    if x.isZero || y.isZero then nan else infinity negative
  else
    let product := x.toRat * y.toRat
    round negative product.num.natAbs product.den

/-- The quotient by a divisor that is not zero. -/
def div (x y : Binary64) : Binary64 :=
  let negative := x.isNegative != y.isNegative
  if x.isNaN || y.isNaN then nan
  else if x.isInfinite then if y.isInfinite then nan else infinity negative
  else if y.isInfinite then .signed negative ⟨0, by omega⟩
  else
    let quotient := x.toRat / y.toRat
    round negative quotient.num.natAbs quotient.den

/-- The least integer at or above a finite double. -/
def ceil (x : Binary64) : Int := x.toRat.ceil

end Binary64
end EventQuery
