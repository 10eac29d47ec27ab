import EventQuery.Archetype
import EventQuery.Text.Pieces

/-!
# EventQuery.Http.Routing

What a path and a method ask for. Queries live under `/projects/<project>/queries/`; whatever else
is asked for there is a query that does not exist. A path that is known only with its final slash
added or taken away is redirected to the one that is known.
-/

namespace EventQuery
namespace Http

/-- What a known path leads to. -/
inductive Route where
  | query (a : Archetype) (project : String)
  | history (project : String)
  | collections (project : String)
  /-- No query of this name. -/
  | unknownQuery
  | health
  | wrongMethod
  /-- The path is known but for its final slash. -/
  | redirect
  | notFound
  deriving DecidableEq

namespace Route

/-- A text without one line feed at its end. -/
def dropLineFeed (s : List Char) : List Char :=
  if s.getLast? == some '\n' then s.dropLast else s

/-- Methods that a query which does not exist answers to. -/
def anyMethod : List String := ["GET", "POST", "PUT", "PATCH", "DELETE"]

/-- The route of a query by its name. -/
def named? (project name : String) : Option Route :=
  match Archetype.ofName? name with
  | some a => some (query a project)
  | none =>
    if name == "eeris" then some (history project)
    else if name == "collections" then some (collections project)
    else none

/-- A path below the queries of a project: the pieces after `queries`. -/
def underQueries (method project : String) (rest : List (List Char)) : Option Route :=
  let path := String.ofList (dropLineFeed ("/".toList.intercalate rest))
  match named? project path with
  | some route =>
    if method == "GET" then some route
    else if anyMethod.contains method then some unknownQuery
    else some wrongMethod
  | none =>
    if path.toList.contains '\n' then none
    else if anyMethod.contains method then some unknownQuery
    else some wrongMethod

/-- The route of a path as it stands. -/
def direct? (method path : String) : Option Route :=
  match Text.pieces (· == '/') path.toList with
  | [] :: projects :: project :: queries :: first :: more =>
    if String.ofList projects == "projects" && !project.isEmpty
        && String.ofList queries == "queries" then
      underQueries method (String.ofList project) (first :: more)
    else none
  | _ =>
    if String.ofList (dropLineFeed path.toList) == "/health" then
      some (if method == "GET" then health else wrongMethod)
    else none

/-- A path with its final slashes taken away, or with one added. -/
def toggleSlash (path : String) : String :=
  let s := path.toList
  if s.getLast? == some '/' then String.ofList (s.reverse.dropWhile (· == '/')).reverse
  else path ++ "/"

/-- The route of a path. -/
def of (method path : String) : Route :=
  match direct? method path with
  | some route => route
  | none =>
    if path != "/" && (direct? method (toggleSlash path)).isSome then redirect else notFound

end Route
end Http
end EventQuery
