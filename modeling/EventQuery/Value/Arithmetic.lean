import EventQuery.Decimal.Arithmetic
import EventQuery.Value.Basic

/-!
# EventQuery.Value.Arithmetic

Sums and means of values. Integers add exactly, with true as one and false as zero; an integer and
a double add as doubles, in the order in which they come; decimals add with integers only.
-/

namespace EventQuery

/-- Why values have no sum or mean. -/
inductive SumFailure where
  /-- Kinds that do not add. -/
  | kinds (left right : String)
  /-- An integer, or a mean of integers, too large for a double. -/
  | beyondDouble
  /-- Infinite decimals of opposite signs. -/
  | undefinedDecimal
  deriving DecidableEq

def SumFailure.message : SumFailure → String
  | kinds left right =>
    "unsupported operand type(s) for +: '" ++ left ++ "' and '" ++ right ++ "'"
  | beyondDouble | undefinedDecimal => ""

namespace Value

/-- The integer that a value counts as in a sum. -/
def summand? : Value → Option Int
  | int n => some n
  | bool b => some (if b then 1 else 0)
  | _ => none

def toDouble (n : Int) : Except SumFailure Binary64 :=
  (Binary64.ofInt? n).elim (.error .beyondDouble) .ok

def addDecimals (d e : Decimal) : Except SumFailure Value :=
  match d.add? e with
  | some total => .ok (decimal total)
  | none => .error .undefinedDecimal

/-- The sum of two values. -/
def add (x y : Value) : Except SumFailure Value :=
  match x.summand?, y.summand? with
  | some m, some n => .ok (int (m + n))
  | some m, none =>
    match y with
    | float b => (toDouble m).map fun a => float (a.add b)
    | decimal d => addDecimals (.ofInt m) d
    | _ => .error (.kinds x.kindName y.kindName)
  | none, some n =>
    match x with
    | float a => (toDouble n).map fun b => float (a.add b)
    | decimal d => addDecimals d (.ofInt n)
    | _ => .error (.kinds x.kindName y.kindName)
  | none, none =>
    match x, y with
    | float a, float b => .ok (float (a.add b))
    | decimal d, decimal e => addDecimals d e
    | _, _ => .error (.kinds x.kindName y.kindName)

/-- The sum of values from left to right onto a first one. -/
def sumFrom : Value → List Value → Except SumFailure Value
  | total, [] => .ok total
  | total, v :: rest =>
    match total.add v with
    | .error e => .error e
    | .ok total => sumFrom total rest

/-- The sum of values; zero without any. -/
def sum (values : List Value) : Except SumFailure Value := sumFrom (int 0) values

/-- A sum over a positive count: one rounding of the exact quotient for integers. -/
def dividedBy (total : Value) (count : Nat) : Except SumFailure Value :=
  match total with
  | int n =>
    let x := Binary64.ofRat (mkRat n count)
    if x.isFinite then .ok (float x) else .error .beyondDouble
  | float x => .ok (float (x.div (.ofInt count)))
  | decimal d => .ok (decimal (d.divideBy count))
  | v => .error (.kinds v.kindName v.kindName)

/-- The mean of values; null without any. -/
def mean (values : List Value) : Except SumFailure Value :=
  match values with
  | [] => .ok null
  | _ =>
    match sum values with
    | .error e => .error e
    | .ok total => total.dividedBy values.length

end Value
end EventQuery
