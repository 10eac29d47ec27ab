import EventQuery.Value.Basic

/-!
# EventQuery.Value.Order

Equality and order of values. Numbers of all kinds compare by their exact value, text by code
points, times with an offset by their instant, and sequences by their first unequal elements.
Equality is defined for every pair; the order is not, and `compare?` says why. NaN equals nothing;
among doubles and integers it is just in no order, but beside a decimal it is a mistake to ask.
-/

namespace EventQuery

/-- Why two values have no order. -/
inductive Mismatch where
  /-- Kinds that are not ordered with each other. -/
  | kinds (left right : String)
  /-- A time with an offset and one without. -/
  | offsets
  /-- A time and a date. -/
  | timeAndDate
  /-- A decimal and NaN. -/
  | undefinedDecimal
  deriving DecidableEq

namespace DateTime

/-- Equal instants, or equal clocks when neither has an offset. -/
def same (t u : DateTime) : Bool :=
  match t.offset, u.offset with
  | none, none => t.wall == u.wall
  | some _, some _ => t.instant == u.instant
  | _, _ => false

end DateTime

namespace Value

/-- Equality of values that hold no others. -/
def sameScalar : Value → Value → Bool
  | null, null => true
  | text s, text t => s == t
  | date d, date e => d == e
  | datetime t, datetime u => t.same u
  | x, y =>
    match x.quantity?, y.quantity? with
    | some a, some b => a.same b
    | _, _ => false

mutual

/-- Equality: element by element for sequences of the same kind, and field by field, in any order,
for objects. -/
def same : Value → Value → Bool
  | array xs, array ys => sameItems xs ys
  | tuple xs, tuple ys => sameItems xs ys
  | object xs, object ys => xs.length == ys.length && sameFields xs ys
  | x, y => sameScalar x y

def sameItems : List Value → List Value → Bool
  | [], [] => true
  | x :: xs, y :: ys => same x y && sameItems xs ys
  | _, _ => false

def sameFields : List (String × Value) → List (String × Value) → Bool
  | [], _ => true
  | (k, x) :: rest, other =>
    (match other.lookup k with
      | some y => same x y
      | none => false) && sameFields rest other

end

def ofInts (a b : Int) : Ordering := if a < b then .lt else if b < a then .gt else .eq

def ofTexts (s t : String) : Ordering := if s < t then .lt else if t < s then .gt else .eq

def isDecimal : Value → Bool
  | decimal _ => true
  | _ => false

/-- The order of values that hold no others; NaN is ordered with no number. -/
def compareScalar? : Value → Value → Except Mismatch (Option Ordering)
  | text s, text t => .ok (some (ofTexts s t))
  | date d, date e => .ok (some (ofInts d.days e.days))
  | datetime t, datetime u =>
    match t.offset, u.offset with
    | none, none => .ok (some (ofInts t.wall u.wall))
    | some _, some _ => .ok (some (ofInts t.instant u.instant))
    | _, _ => .error .offsets
  | date _, datetime _ | datetime _, date _ => .error .timeAndDate
  | x, y =>
    match x.quantity?, y.quantity? with
    | some a, some b =>
      match a.compare? b with
      | some o => .ok (some o)
      | none => if x.isDecimal || y.isDecimal then .error .undefinedDecimal else .ok none
    | _, _ => .error (.kinds x.kindName y.kindName)

mutual

/-- The order of two values: their order, or none when one is NaN. -/
def compare? : Value → Value → Except Mismatch (Option Ordering)
  | array xs, array ys => compareItems? xs ys
  | tuple xs, tuple ys => compareItems? xs ys
  | x, y => compareScalar? x y

/-- The first pair of unequal elements decides, or else the lengths. -/
def compareItems? : List Value → List Value → Except Mismatch (Option Ordering)
  | [], [] => .ok (some .eq)
  | [], _ :: _ => .ok (some .lt)
  | _ :: _, [] => .ok (some .gt)
  | x :: xs, y :: ys => if same x y then compareItems? xs ys else compare? x y

end

end Value

/-- The comparisons that a filter can ask for. -/
inductive Operator where
  | eq | gt | gte | lt | lte | ne
  deriving DecidableEq

namespace Operator

def all : List Operator := [eq, gt, gte, lt, lte, ne]

def name : Operator → String
  | eq => "eq"
  | gt => "gt"
  | gte => "gte"
  | lt => "lt"
  | lte => "lte"
  | ne => "ne"

def ofName? (s : String) : Option Operator := all.find? (·.name == s)

theorem ofName?_name (op : Operator) : ofName? op.name = some op := by cases op <;> decide

/-- The mark of a comparison in messages. -/
def mark : Operator → String
  | eq => "=="
  | gt => ">"
  | gte => ">="
  | lt => "<"
  | lte => "<="
  | ne => "!="

/-- Whether an order satisfies a comparison. -/
def accepts : Operator → Ordering → Bool
  | eq, o => o == .eq
  | gt, o => o == .gt
  | gte, o => o != .lt
  | lt, o => o == .lt
  | lte, o => o != .gt
  | ne, o => o != .eq

/-- Whether two values satisfy a comparison: equality and its negation are always defined, and no
comparison by order holds of NaN. -/
def holds (op : Operator) (x y : Value) : Except Mismatch Bool :=
  match op with
  | eq => .ok (x.same y)
  | ne => .ok (!x.same y)
  | op =>
    match x.compare? y with
    | .error m => .error m
    | .ok none => .ok false
    | .ok (some o) => .ok (op.accepts o)

end Operator

/-- The message for values without an order. -/
def Mismatch.message (op : Operator) : Mismatch → String
  | kinds left right =>
    "'" ++ op.mark ++ "' not supported between instances of '" ++ left ++ "' and '" ++ right ++ "'"
  | offsets => "can't compare offset-naive and offset-aware datetimes"
  | timeAndDate => "can't compare datetime.datetime to datetime.date"
  | undefinedDecimal => ""

end EventQuery
