import EventQuery.Filter.Basic
import EventQuery.Timeframe

/-!
# EventQuery.Statement.Predicate

Conditions of a WHERE clause. A condition knows the values it binds; its text holds a numbered
placeholder for each of them, in their order, and never a value itself. The columns of a condition
are accepted properties.
-/

namespace EventQuery

/-- The placeholder of the value bound in a place, counted from one. -/
def placeholder (place : Nat) : String := "$" ++ toString place

/-- The mark of a comparison in a statement. -/
def Operator.sql : Operator → String
  | eq => "="
  | gt => ">"
  | gte => ">="
  | lt => "<"
  | lte => "<="
  | ne => "<>"

/-- The cast that pins a placeholder to the family of its value. -/
def Value.cast : Value → String
  | .datetime _ => "::timestamptz"
  | .float _ => "::float8"
  | _ => ""

inductive Predicate where
  /-- The event lies in a window. -/
  | within (window : Window)
  /-- A column lies in a band, bounds included. -/
  | inside (column : String) (low high : Value)
  /-- A column lies outside a band. -/
  | outside (column : String) (low high : Value)
  /-- No row. -/
  | nothing
  /-- All comparisons hold. -/
  | comparisons (filters : List Filter)

namespace Predicate

/-- The values bound by a condition, in the order of their placeholders. -/
def values : Predicate → List Value
  | within w => [.datetime w.start, .datetime w.stop]
  | inside _ low high | outside _ low high => [low, high]
  | nothing => []
  | comparisons filters => filters.map (·.value)

/-- One comparison, its value bound in a given place. -/
def comparisonText (place : Nat) (f : Filter) : String :=
  Name.inQuotes f.property ++ " " ++ f.operator.sql ++ " " ++ placeholder place ++ f.value.cast

def comparisonTexts (place : Nat) : List Filter → List String
  | [] => []
  | f :: rest => comparisonText place f :: comparisonTexts (place + 1) rest

/-- The text of a condition when some values are already bound. -/
def text (bound : Nat) : Predicate → String
  | within _ =>
    let column := Name.inQuotes Name.timestampColumn
    column ++ " >= " ++ placeholder (bound + 1) ++ "::timestamptz AND " ++ column ++ " < "
      ++ placeholder (bound + 2) ++ "::timestamptz"
  | inside column _ _ =>
    Name.inQuotes column ++ " BETWEEN " ++ placeholder (bound + 1) ++ " AND "
      ++ placeholder (bound + 2)
  | outside column _ _ =>
    let quoted := Name.inQuotes column
    "(" ++ quoted ++ " < " ++ placeholder (bound + 1) ++ " OR " ++ quoted ++ " > "
      ++ placeholder (bound + 2) ++ ")"
  | nothing => "FALSE"
  | comparisons filters => " AND ".intercalate (comparisonTexts (bound + 1) filters)

/-- The texts of conditions that share one list of bound values. -/
def texts (bound : Nat) : List Predicate → List String
  | [] => []
  | p :: rest => p.text bound :: texts (bound + p.values.length) rest

end Predicate

namespace Filter

/-- Accepts the properties of filters as columns, in order. -/
def checkColumns : List Filter → Outcome Unit
  | [] => .ok ()
  | f :: rest =>
    match Name.property "column" (.text f.property) with
    | .error e => .error e
    | .ok _ => checkColumns rest

/-- The condition that all filters hold; none without filters. -/
def predicate (filters : List Filter) : Outcome (Option Predicate) :=
  if filters.isEmpty then .ok none
  else (checkColumns filters).map fun _ => some (.comparisons filters)

end Filter
end EventQuery
