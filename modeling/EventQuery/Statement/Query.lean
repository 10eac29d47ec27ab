import EventQuery.Request.Basic
import EventQuery.Statement.Basic
import EventQuery.Statement.Predicate

/-!
# EventQuery.Statement.Query

The one statement of a request. Aggregates are computed by the store, except the median, a
percentile and whatever is split by intervals: those fetch raw rows, newest first, so that the row
cap keeps the latest events. The row cap is the last bound value.
-/

namespace EventQuery

namespace Archetype

/-- The aggregate of a column in a statement, and the name of its result. -/
def aggregate (a : Archetype) (column : String) : String × String :=
  match a with
  | minimum => ("MIN(" ++ column ++ ")", "min")
  | maximum => ("MAX(" ++ column ++ ")", "max")
  | sum => ("SUM(" ++ column ++ ")", "sum")
  | average => ("AVG(" ++ column ++ ")", "avg")
  | countUnique => ("COUNT(DISTINCT " ++ column ++ ")", "count")
  | _ => ("COUNT(*)", "count")

end Archetype

namespace Statement

/-- Columns in a statement, in order. -/
def quotedColumns : List String → Outcome (List String)
  | [] => .ok []
  | name :: rest =>
    match Name.quotedColumn (.text name) with
    | .error e => .error e
    | .ok column =>
      match quotedColumns rest with
      | .error e => .error e
      | .ok columns => .ok (column :: columns)

/-- The column of a name that may be missing; nothing for one that is. -/
def optionalColumn (name : Option String) : Outcome (Option String) :=
  match present name with
  | none => .ok none
  | some n => (Name.quotedColumn (.text n)).map some

/-- The aggregate that the store computes for an archetype, with its name. -/
def aggregateText (r : Request) : Outcome String :=
  match r.archetype with
  | .selectUnique =>
    (Name.quotedColumn (.ofText? r.target)).map fun target =>
      "ARRAY_AGG(DISTINCT " ++ target ++ ") AS " ++ target
  | archetype =>
    (optionalColumn r.target).map fun target =>
      let (expression, name) := archetype.aggregate (target.getD "")
      expression ++ " AS " ++ Name.inQuotes name

/-- What is selected, and the clause after WHERE. -/
structure Selection where
  columns : String
  tail : String

def newestFirst : String := " ORDER BY " ++ Name.inQuotes Name.timestampColumn ++ " DESC"

/-- One aggregate, or one for each value of the grouping column. -/
def aggregateSelection (r : Request) : Outcome Selection :=
  match aggregateText r with
  | .error e => .error e
  | .ok aggregate =>
    (optionalColumn r.groupBy).map fun
      | none => ⟨aggregate, ""⟩
      | some column => ⟨column ++ ", " ++ aggregate, " GROUP BY " ++ column⟩

/-- Whole rows for splitting and grouping, and else the target alone. -/
def rawSelection (r : Request) : Outcome Selection :=
  if r.interval.isSome || (present r.groupBy).isSome then .ok ⟨"*", newestFirst⟩
  else (optionalColumn r.target).map fun target => ⟨target.getD "*", newestFirst⟩

/-- The properties asked for, or all. -/
def extractionSelection (r : Request) : Outcome Selection :=
  if r.targets.isEmpty then .ok ⟨"*", newestFirst⟩
  else (quotedColumns r.targets).map fun columns => ⟨", ".intercalate columns, newestFirst⟩

def selection (r : Request) : Outcome Selection :=
  match r.archetype with
  | .extraction => extractionSelection r
  | .median | .percentile => rawSelection r
  | _ => if r.interval.isSome then rawSelection r else aggregateSelection r

/-- The statement of a request under conditions in text, which bind the given values. -/
def ofTexts (r : Request) (bound : List Value) (predicates : List (Option String)) :
    Outcome Statement :=
  match Name.quotedTable (.text r.project) (.text r.collection) with
  | .error e => .error e
  | .ok table =>
    (selection r).map fun s =>
      ⟨"SELECT " ++ s.columns ++ " FROM " ++ table ++ whereClause predicates ++ s.tail
        ++ " LIMIT " ++ placeholder (bound.length + 1), bound ++ [.int r.latest]⟩

/-- The statement of a request under conditions. -/
def ofRequest (r : Request) (predicates : List Predicate) : Outcome Statement :=
  ofTexts r (predicates.flatMap (·.values)) ((Predicate.texts 0 predicates).map some)

end Statement
end EventQuery
