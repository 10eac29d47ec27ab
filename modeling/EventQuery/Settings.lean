import EventQuery.Failure
import EventQuery.Json.Reader
import EventQuery.Text.Case
import EventQuery.Text.Lenient

/-!
# EventQuery.Settings

The settings of the program and how an environment sets them. A variable sets the setting of its
name, in any case; a variable of another name does not count.
-/

namespace EventQuery

structure Settings where
  databaseUrl : String := "postgresql://cockroach@localhost:26257/cenote"
  poolMinSize : Int := 2
  poolMaxSize : Int := 10
  /-- Seconds that a statement may take. -/
  queryTimeout : Binary64 := .ofInt 30
  cacheUrl : String := "redis://localhost:6379/0"
  /-- Seconds that a call of the cache may take. -/
  cacheTimeout : Binary64 := .ofInt 5
  /-- The row cap of a query that gives none. -/
  globalLimit : Int := 5000
  /-- Half the width of the outlier band, in standard deviations. -/
  outlierWidth : Binary64 := .ofInt 3
  projectsTable : String := "projects"
  /-- Whether callers see the words of a failing backend. -/
  exposeErrors : Bool := true
  logLevel : String := "INFO"
  host : String := "0.0.0.0"
  port : Int := 3000
  corsOrigins : List String := ["*"]

namespace Settings

/-- A text setting. -/
def text (v : Value) : Outcome String :=
  match v with
  | .text s => .ok s
  | _ => faulty .malformed

/-- An integer setting. -/
def integer (v : Value) : Outcome Int :=
  match v with
  | .int n => .ok n
  | .bool b => .ok (if b then 1 else 0)
  | .float x => if x.isFinite && x.toRat.den == 1 then .ok x.toRat.num else faulty .malformed
  | .decimal d =>
    match d.quantity with
    | .finite q => if q.den = 1 then .ok q.num else faulty .malformed
    | _ => faulty .malformed
  | .text s =>
    match Lenient.integer? s with
    | some n => .ok n
    | none => faulty .malformed
  | _ => faulty .malformed

/-- A real setting. -/
def real (v : Value) : Outcome Binary64 :=
  match v.lenientDouble? with
  | some x => .ok x
  | none => faulty .malformed

/-- A switch; zero is off and one is on. -/
def switch (v : Value) : Outcome Bool :=
  let ofDouble (x : Binary64) : Outcome Bool :=
    if x.isZero then .ok false else if x.same (.ofInt 1) then .ok true else faulty .malformed
  match v with
  | .bool b => .ok b
  | .int n => if n = 0 then .ok false else if n = 1 then .ok true else faulty .malformed
  | .float x => ofDouble x
  | .decimal d => ofDouble d.toBinary64
  | .text s =>
    match Lenient.bool? s with
    | some b => .ok b
    | none => faulty .malformed
  | _ => faulty .malformed

/-- A list of texts. -/
def texts (v : Value) : Outcome (List String) :=
  match v with
  | .array items | .tuple items =>
    match items.mapM Value.text? with
    | some ss => .ok ss
    | none => faulty .malformed
  | _ => faulty .malformed

/-- Sets one setting by its name; other names are left alone. -/
def set (s : Settings) (name : String) (v : Value) : Outcome Settings :=
  match name with
  | "database_url" => (text v).map fun x => { s with databaseUrl := x }
  | "db_pool_min_size" => (integer v).map fun x => { s with poolMinSize := x }
  | "db_pool_max_size" => (integer v).map fun x => { s with poolMaxSize := x }
  | "query_timeout_seconds" => (real v).map fun x => { s with queryTimeout := x }
  | "redis_url" => (text v).map fun x => { s with cacheUrl := x }
  | "cache_timeout_seconds" => (real v).map fun x => { s with cacheTimeout := x }
  | "global_limit" => (integer v).map fun x => { s with globalLimit := x }
  | "outlier_k" => (real v).map fun x => { s with outlierWidth := x }
  | "projects_table" => (text v).map fun x => { s with projectsTable := x }
  | "expose_backend_errors" => (switch v).map fun x => { s with exposeErrors := x }
  | "log_level" => (text v).map fun x => { s with logLevel := x }
  | "host" => (text v).map fun x => { s with host := x }
  | "port" => (integer v).map fun x => { s with port := x }
  | "cors_origins" => (texts v).map fun x => { s with corsOrigins := x }
  | _ => .ok s

/-- Sets settings by name, in order. -/
def setAll (s : Settings) : List (String × Value) → Outcome Settings
  | [] => .ok s
  | (name, v) :: rest =>
    match s.set name v with
    | .error e => .error e
    | .ok s => setAll s rest

/-- The value that a variable gives to the list setting: its JSON, and nothing for null. -/
def listVariable (s : String) : Outcome (Option Value) :=
  match Json.read? s with
  | none => faulty .unreadableList
  | some .null => .ok none
  | some v => .ok (some v)

/-- The values that an environment gives to settings, by name. The list is decoded before any
setting is read. -/
def assignments : List (String × String) → Outcome (List (String × Value))
  | [] => .ok []
  | (name, value) :: rest =>
    let lowered := Text.lowered name
    if lowered == "cors_origins" then
      match listVariable value with
      | .error e => .error e
      | .ok found =>
        (assignments rest).map fun vs => (found.map fun v => (lowered, v)).toList ++ vs
    else (assignments rest).map fun vs => (lowered, .text value) :: vs

/-- The last variable of each name, its case apart. -/
def lastOfEach : List (String × String) → List (String × String)
  | [] => []
  | (name, value) :: rest =>
    if rest.any fun (other, _) => Text.lowered other == Text.lowered name then lastOfEach rest
    else (name, value) :: lastOfEach rest

/-- The settings of an environment. -/
def ofEnvironment (environment : List (String × String)) : Outcome Settings :=
  match assignments (lastOfEach environment) with
  | .error e => .error e
  | .ok values => setAll {} values

/-- All settings by name. -/
def toRecord (s : Settings) : Record :=
  [("database_url", .text s.databaseUrl), ("db_pool_min_size", .int s.poolMinSize),
    ("db_pool_max_size", .int s.poolMaxSize), ("query_timeout_seconds", .float s.queryTimeout),
    ("redis_url", .text s.cacheUrl), ("cache_timeout_seconds", .float s.cacheTimeout),
    ("global_limit", .int s.globalLimit), ("outlier_k", .float s.outlierWidth),
    ("projects_table", .text s.projectsTable), ("expose_backend_errors", .bool s.exposeErrors),
    ("log_level", .text s.logLevel), ("host", .text s.host), ("port", .int s.port),
    ("cors_origins", .array (s.corsOrigins.map .text))]

end Settings
end EventQuery
