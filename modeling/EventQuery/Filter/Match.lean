import EventQuery.Filter.Basic
import EventQuery.Text.Numeral
import EventQuery.Value.Moment

/-!
# EventQuery.Filter.Match

Filters applied to rows that are already there. The two sides are first brought together: times
are compared as instants when one side is a time, and text that writes a number is compared as
that number when the other side is one. A row without the column passes; values without an order
satisfy only `ne`.
-/

namespace EventQuery
namespace Filter

def isTime : Value → Bool
  | .date _ | .datetime _ => true
  | _ => false

/-- Both sides as instants, or as they are when one of them is no time. -/
def alignTimes (left right : Value) : Outcome (Value × Value) :=
  match left.utc?, right.utc? with
  | .error e, _ => .error e
  | _, .error e => .error e
  | .ok (some t), .ok (some u) => .ok (.datetime t, .datetime u)
  | .ok _, .ok _ => .ok (left, right)

/-- A text as the number it writes. -/
def numberIn (s : String) : Value :=
  match Numeral.real? s with
  | some x => .float x
  | none => .text s

/-- Two values in a form in which they can be compared. -/
def align (left right : Value) : Outcome (Value × Value) :=
  if isTime left || isTime right then alignTimes left right
  else
    match left, right with
    | .text s, right => .ok (if right.isNumber then numberIn s else .text s, right)
    | left, .text s => .ok (left, if left.isNumber then numberIn s else .text s)
    | left, right => .ok (left, right)

/-- Whether two values satisfy the comparison of a filter. -/
def compares (op : Operator) (left right : Value) : Outcome Bool :=
  match align left right with
  | .error e => .error e
  | .ok (l, r) =>
    match op.holds l r with
    | .ok b => .ok b
    | .error .undefinedDecimal => faulty .undefinedDecimal
    | .error _ => .ok (op == .ne)

/-- Whether a row satisfies a filter. -/
def accepts (f : Filter) (row : Record) : Outcome Bool :=
  match Record.find? row f.property with
  | none => .ok true
  | some v => compares f.operator v f.value

/-- The rows that satisfy a filter. -/
def select (f : Filter) : List Record → Outcome (List Record)
  | [] => .ok []
  | row :: rest =>
    match accepts f row with
    | .error e => .error e
    | .ok keep =>
      match select f rest with
      | .error e => .error e
      | .ok rows => .ok (if keep then row :: rows else rows)

/-- The rows that satisfy every filter; one filter is applied to all rows before the next. -/
def selectAll : List Filter → List Record → Outcome (List Record)
  | [], rows => .ok rows
  | f :: rest, rows =>
    match select f rows with
    | .error e => .error e
    | .ok kept => selectAll rest kept

end Filter
end EventQuery
