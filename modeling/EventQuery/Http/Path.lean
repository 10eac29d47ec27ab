import EventQuery.Http.Percent
import EventQuery.Text.Pieces

/-!
# EventQuery.Http.Path

Targets of requests: a path, and perhaps a query string after `?`. What follows a `#` does not
count.
-/

namespace EventQuery
namespace Http

structure Target where
  path : List Char
  query : List Char

namespace Target

/-- Cuts a target into its path and its query string. -/
def of (s : String) : Target :=
  let s := s.toList.takeWhile (· != '#')
  ⟨s.takeWhile (· != '?'), (s.dropWhile (· != '?')).drop 1⟩

/-! ## Path -/

/-- A path without the name of a host, which stands between two slashes and the next one. -/
def withoutHost (path : List Char) : List Char :=
  match path with
  | '/' :: '/' :: rest => rest.dropWhile (· != '/')
  | path => path

/-- A path with one slash at its front. -/
def rooted (path : List Char) : List Char := '/' :: path.dropWhile (· == '/')

/-- A path without dot segments: `.` is left out, and `..` takes the segment before it away. -/
def withoutDots (path : List Char) : List Char :=
  let step (kept : List (List Char)) (segment : List Char) : List (List Char) :=
    if segment == ['.'] then kept
    else if segment == ['.', '.'] then if kept == [[]] then kept else kept.drop 1
    else segment :: kept
  ['/'].intercalate ((Text.pieces (· == '/') path).foldl step []).reverse

/-- The path that is meant. It is decoded twice, once by each side of a connection. -/
def decodedPath (t : Target) : String :=
  let path := withoutDots (rooted (withoutHost t.path))
  String.ofList (Percent.decode (Percent.decode (if path.isEmpty then ['/'] else path)))

/-! ## Query string -/

/-- A part of a query string, in which a `+` stands for a space. -/
def decodedPart (s : List Char) : String :=
  String.ofList (Percent.decode (s.map fun c => if c == '+' then ' ' else c))

/-- The parameters of the query string, in order. -/
def params (t : Target) : List (String × String) :=
  ((Text.pieces (· == '&') t.query).filter (!·.isEmpty)).map fun pair =>
    (decodedPart (pair.takeWhile (· != '=')), decodedPart ((pair.dropWhile (· != '=')).drop 1))

end Target
end Http
end EventQuery
