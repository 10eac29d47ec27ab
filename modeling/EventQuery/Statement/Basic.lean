import EventQuery.Name

/-!
# EventQuery.Statement.Basic

A statement for the store: its text and the values of its placeholders. Here are the statements
that do not depend on an archetype. Names in a text are accepted and in double quotes.
-/

namespace EventQuery

structure Statement where
  sql : String
  params : List Value

namespace Statement

/-- The WHERE clause that conjoins conditions; those that are missing or empty do not count. -/
def whereClause (predicates : List (Option String)) : String :=
  match predicates.filterMap fun p => p.filter (!·.isEmpty) with
  | [] => ""
  | parts => " WHERE " ++ " AND ".intercalate (parts.map fun p => "(" ++ p ++ ")")

/-- Mean and standard deviation of a column over a whole collection. -/
def statistics (project collection property : Value) : Outcome Statement :=
  match Name.quotedTable project collection with
  | .error e => .error e
  | .ok table =>
    match Name.quotedColumn property with
    | .error e => .error e
    | .ok column =>
      .ok ⟨"SELECT AVG(" ++ column ++ ") AS \"mean\", STDDEV(" ++ column
        ++ ") AS \"stddev\" FROM " ++ table, []⟩

/-- The list of columns with their tables and types. -/
def columnList : String :=
  "SELECT table_name, column_name, data_type FROM information_schema.columns WHERE "
    ++ "table_schema = 'public' AND table_name "

/-- The pattern of the tables of a project; its underscore stands for itself. -/
def tablePattern (project : String) : String := project ++ "\\_%"

/-- The columns of all collections of a project. -/
def collections (project : Value) : Outcome Statement :=
  match Name.flat "project id" project with
  | .error e => .error e
  | .ok p =>
    .ok ⟨columnList ++ "LIKE $1 ORDER BY table_name, ordinal_position",
      [.text (tablePattern p)]⟩

/-- The columns of one collection. -/
def columnTypes (project collection : Value) : Outcome Statement :=
  match Name.flat "project id" project with
  | .error e => .error e
  | .ok p =>
    match Name.flat "collection" collection with
    | .error e => .error e
    | .ok c => .ok ⟨columnList ++ "= $1", [.text (Name.tableName p c)]⟩

/-- The keys of one project. -/
def project (table project : Value) : Outcome Statement :=
  match Name.flat "projects table" table with
  | .error e => .error e
  | .ok t =>
    .ok ⟨"SELECT project_id, read_key, write_key, master_key, organization FROM "
      ++ Name.inQuotes t ++ " WHERE project_id = $1 LIMIT 1", [project]⟩

end Statement
end EventQuery
