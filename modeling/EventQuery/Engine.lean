import EventQuery.Column
import EventQuery.Filter.Coercion
import EventQuery.Filter.Match
import EventQuery.Outlier
import EventQuery.Project
import EventQuery.Request.Gate
import EventQuery.Shape
import EventQuery.Statement.Query

/-!
# EventQuery.Engine

One query from parameters to answer: the gate, the filters in the kinds of their columns, the
timeframe, the outlier band, the statement, the filters once more where the archetype wants it, and
the shape of the answer. The first part that fails decides, and nothing is sent after it.
-/

namespace EventQuery
namespace Engine

/-- Lets a caller in and reads the request. -/
def authorize (s : Settings) (a : Archetype) (project : String) (p : Params) : Run Request := do
  discard (Project.enter s project ⟨p.readKey, p.masterKey⟩)
  .ofOutcome (Gate.request a project p s.globalLimit)

/-- Whether a row of the list of columns is of a table; a row that names none counts. -/
def ofTable (table : String) (row : Record) : Bool :=
  match Record.find? row "table_name" with
  | none => true
  | some v => v.same (.text table)

/-- The kind of a column by its data type, which may be missing. -/
def kindOf (dataType : Value) : Outcome ColumnKind :=
  match dataType with
  | .text s => .ok (.ofDataType (some s))
  | v => if v.isBlank then .ok (.ofDataType none) else faulty .notText

/-- The column and the kind that a row of the list of columns gives. -/
def columnOf (row : Record) : Outcome (String × ColumnKind) :=
  match Record.find? row "column_name" with
  | none => faulty .missingField
  | some name =>
    match kindOf (Record.value row "data_type") with
    | .error e => .error e
    | .ok kind => if name.isKey then .ok (name.displayed, kind) else faulty .notKey

/-- The columns of a list of rows, in order. -/
def columnsOf : List Record → Outcome (List (String × ColumnKind))
  | [] => .ok []
  | row :: rest =>
    match columnOf row with
    | .error e => .error e
    | .ok column => (columnsOf rest).map (column :: ·)

/-- The kinds of the columns of a collection, by name. -/
def columnKinds (s : Settings) (project collection : Value) :
    Run (List (String × ColumnKind)) := do
  let statement ← Run.ofOutcome (Statement.columnTypes project collection)
  let rows ← Client.fetch s statement
  let table := Name.tableName project.displayed collection.displayed
  .ofOutcome ((columnsOf (rows.filter (ofTable table))).map Assoc.ofList)

/-- The request with its filter values in the kinds of their columns. -/
def coerceFilters (s : Settings) (r : Request) : Run Request := do
  if r.filters.isEmpty then return r
  let kinds ← columnKinds s (.text r.project) (.text r.collection)
  let filters ← Run.ofOutcome (Filter.coerceAll kinds r.filters)
  return { r with filters }

/-- The property whose outliers decide which rows a request reads, if it has one. -/
def bandProperty (r : Request) : Option String :=
  if r.outliers = .include then none else present r.outliersIn

/-- The statistics of the property whose outliers decide. -/
def outlierStatistics (s : Settings) (r : Request) : Run (Option (String × Statistics)) :=
  match bandProperty r with
  | none => return none
  | some property => do
    let stats ← Statistics.get s (.text r.project) (.text r.collection) (.text property)
    return some (property, stats)

/-- The condition that the outlier band of a request sets. -/
def band (s : Settings) (r : Request) (stats : Option (String × Statistics)) :
    Outcome (Option Predicate) :=
  match stats with
  | none => .ok none
  | some (property, stats) => stats.predicate (.text property) r.outliers s.outlierWidth

/-- The statement of a request for a window and for the statistics of its band. -/
def assemble (s : Settings) (r : Request) (window : Option Window)
    (stats : Option (String × Statistics)) : Outcome Statement :=
  match band s r stats with
  | .error e => .error e
  | .ok band =>
    match Filter.predicate r.filters with
    | .error e => .error e
    | .ok filters =>
      Statement.ofRequest r ((window.map Predicate.within).toList ++ band.toList ++ filters.toList)

/-- The statement of a request. -/
def compile (s : Settings) (r : Request) (now : DateTime) : Run Statement := do
  let window ← Run.ofOutcome (Timeframe.resolve (.ofText? r.timeframe) now)
  let stats ← outlierStatistics s r
  .ofOutcome (assemble s r window stats)

/-- The answer of a request. -/
def execute (s : Settings) (r : Request) (now : DateTime) : Run Value := do
  let r ← coerceFilters s r
  let statement ← compile s r now
  let rows ← Client.fetch s statement
  let kept ← if r.archetype.filtersRows then Run.ofOutcome (Filter.selectAll r.filters rows)
    else pure rows
  .ofOutcome (Shape.ofRows r kept)

/-- The answer to a query. -/
def run (s : Settings) (a : Archetype) (project : String) (p : Params) (now : DateTime) :
    Run Value := do
  let r ← authorize s a project p
  execute s r now

end Engine
end EventQuery
