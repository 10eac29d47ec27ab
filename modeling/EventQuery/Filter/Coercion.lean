import EventQuery.Column
import EventQuery.Filter.Basic
import EventQuery.Json.Printer
import EventQuery.Text.Case
import EventQuery.Value.Moment

/-!
# EventQuery.Filter.Coercion

Filter values in the kind of the column they are compared with. JSON has text, numbers and
booleans only, so a timestamp arrives as text or milliseconds, and a number may arrive as text.
Null, and values for columns of no known kind, stay as they are.
-/

namespace EventQuery
namespace Filter

/-- The refusal of a value, which its message shows. -/
def refuse (column wanted : String) (v : Value) : Outcome Value :=
  if v.isShowable then complain (.filterValue column wanted v.shown) else faulty .numeralTooLong

def toTimestamp (column : String) (v : Value) : Outcome Value :=
  match v.utc? with
  | .error e => .error e
  | .ok (some t) => .ok (.datetime t)
  | .ok none => refuse column "an ISO-8601 instant" v

/-- A double: the nearest to an integer, or the one that a text writes. -/
def toNumber (column : String) (v : Value) : Outcome Value :=
  let refused := refuse column "a number" v
  match v with
  | .int n =>
    match Binary64.ofInt? n with
    | some x => .ok (.float x)
    | none => faulty .beyondDouble
  | .float x => .ok (.float x)
  | .text s =>
    match Numeral.real? s with
    | some x => .ok (.float x)
    | none => refused
  | _ => refused

/-- A text; numbers and booleans become their JSON text. -/
def toText (column : String) (v : Value) : Outcome Value :=
  match v with
  | .text s => .ok (.text s)
  | .bool b => .ok (.text (if b then "true" else "false"))
  | .int n => if v.isShowable then .ok (.text (toString n)) else faulty .numeralTooLong
  | .float x => .ok (.text (Json.numberText x))
  | v => refuse column "a string" v

/-- A boolean: also the words for one in any case, and the numbers zero and one. -/
def toBoolean (column : String) (v : Value) : Outcome Value :=
  let refused := refuse column "a boolean" v
  match v with
  | .bool b => .ok (.bool b)
  | .text s =>
    let word := Text.lowered s
    if word == "true" then .ok (.bool true)
    else if word == "false" then .ok (.bool false)
    else refused
  | .int n => if n = 0 then .ok (.bool false) else if n = 1 then .ok (.bool true) else refused
  | .float x =>
    if x.isZero then .ok (.bool false)
    else if x.same (.ofInt 1) then .ok (.bool true)
    else refused
  | _ => refused

/-- A value in the kind of its column. -/
def coerceValue (column : String) (v : Value) (kind : ColumnKind) : Outcome Value :=
  if v.isNull then .ok v
  else
    match kind with
    | .other => .ok v
    | .timestamp => toTimestamp column v
    | .number => toNumber column v
    | .text => toText column v
    | .boolean => toBoolean column v

/-- The kind that a column's filters are read in: the column that dates events is a timestamp, and
the others are as listed. -/
def kindFor (kinds : List (String × ColumnKind)) (column : String) : Option ColumnKind :=
  if column == Name.timestampColumn then some .timestamp else kinds.lookup column

def coerce (kinds : List (String × ColumnKind)) (f : Filter) : Outcome Filter :=
  match kindFor kinds f.property with
  | none => .ok f
  | some kind => (coerceValue f.property f.value kind).map fun v => { f with value := v }

/-- Coerces filters in order; the first that fails decides. -/
def coerceAll (kinds : List (String × ColumnKind)) : List Filter → Outcome (List Filter)
  | [] => .ok []
  | f :: rest =>
    match coerce kinds f with
    | .error e => .error e
    | .ok g =>
      match coerceAll kinds rest with
      | .error e => .error e
      | .ok gs => .ok (g :: gs)

end Filter
end EventQuery
