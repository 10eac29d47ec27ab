import EventQuery.Project

/-!
# EventQuery.Listing

The collections of a project and their columns.
-/

namespace EventQuery

/-- A column of a collection; its type may be unknown. -/
structure ColumnInfo where
  name : String
  type : Option String
  deriving DecidableEq

def ColumnInfo.toValue (c : ColumnInfo) : Value :=
  .object [("column_name", .text c.name), ("type", .ofText? c.type)]

namespace Listing

/-- Columns that no one made. -/
def hiddenColumns : List String := ["rowid"]

/-- The collection that a table holds for a project: what follows the project's name. -/
def collectionOf (project table : String) : Option String :=
  let start := (Name.tableName project "").toList
  if start.isPrefixOf table.toList then some (String.ofList (table.toList.drop start.length))
  else none

/-- The name of the table of a row. -/
def tableField (r : Record) : Outcome String :=
  match Record.find? r "table_name" with
  | none => faulty .missingField
  | some (.text s) => .ok s
  | some _ => faulty .notText

/-- The name of the column of a row. -/
def columnField (r : Record) : Outcome String :=
  match Record.find? r "column_name" with
  | none => faulty .missingField
  | some (.text s) => .ok s
  | some v => if v.isKey then faulty .malformed else faulty .notKey

/-- The type of a column, a text or null. -/
def typeField (r : Record) : Outcome (Option String) :=
  match Record.value r "data_type" with
  | .text s => .ok (some s)
  | .null => .ok none
  | _ => faulty .malformed

/-- The collection and the column of a row, unless it is of another project or hidden. -/
def ofRow (project : String) (r : Record) : Outcome (Option (String × ColumnInfo)) := do
  let table ← tableField r
  match collectionOf project table with
  | none => return none
  | some collection =>
    let column ← columnField r
    if hiddenColumns.contains column then return none
    let type ← typeField r
    return some (collection, ⟨column, type⟩)

/-- Adds a column to its collection. -/
def add (collection : String) (c : ColumnInfo) :
    List (String × List ColumnInfo) → List (String × List ColumnInfo)
  | [] => [(collection, [c])]
  | (name, columns) :: rest =>
    if name == collection then (name, columns ++ [c]) :: rest
    else (name, columns) :: add collection c rest

/-- The collections of a project in a list of rows, after some that are listed already. -/
def ofRowsFrom (project : String) (listed : List (String × List ColumnInfo)) :
    List Record → Outcome (List (String × List ColumnInfo))
  | [] => .ok listed
  | row :: rest =>
    match ofRow project row with
    | .error e => .error e
    | .ok none => ofRowsFrom project listed rest
    | .ok (some (collection, column)) => ofRowsFrom project (add collection column listed) rest

/-- The collections of a project in a list of rows. -/
def ofRows (project : String) (rows : List Record) : Outcome (List (String × List ColumnInfo)) :=
  ofRowsFrom project [] rows

/-- Lists the collections of a project, for its master key. -/
def list (s : Settings) (project : String) (masterKey : Option String) :
    Run (List (String × List ColumnInfo)) := do
  discard (Project.enterAsMaster s project masterKey)
  let statement ← Run.ofOutcome (Statement.collections (.text project))
  let rows ← Client.fetch s statement
  .ofOutcome (ofRows project rows)

/-- The listing by name of collection. -/
def toValue (listing : List (String × List ColumnInfo)) : Value :=
  .object (listing.map fun (name, columns) => (name, .array (columns.map ColumnInfo.toValue)))

end Listing
end EventQuery
