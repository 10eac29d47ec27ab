import EventQuery.Reduction.Bucket
import EventQuery.Reduction.Group
import EventQuery.Request.Basic

/-!
# EventQuery.Shape

From the rows of the store to the answer of a request.
-/

namespace EventQuery
namespace Shape

/-- Appends a value to the array of a column. -/
def push (column : String) (v : Value) : List (String × List Value) → List (String × List Value)
  | [] => [(column, [v])]
  | (k, vs) :: rest =>
    if k == column then (k, vs ++ [v]) :: rest else (k, vs) :: push column v rest

/-- One array for each column, with the values of the rows that have it. -/
def columns (rows : List Record) : List (String × List Value) :=
  rows.foldl (fun cols row => row.foldl (fun cols (k, v) => push k v cols) cols) []

def byColumn (rows : List Record) : Value :=
  .object ((columns rows).map fun (k, vs) => (k, .array vs))

def rowValues (rows : List Record) : Value := .array (rows.map .object)

/-- A single value under a name, in a list of its own. -/
def single (name : String) (v : Value) : Value := .array [.object [(name, v)]]

/-- The answer of an aggregate: the rows as the store computed them, or one value for each
interval. -/
def aggregate (r : Request) (rows : List Record) : Outcome Value :=
  match r.interval with
  | some i => Bucket.reduce rows i r.archetype r.target none
  | none => .ok (rowValues rows)

/-- The answer of a median or a percentile: one value for each interval, for each group, or for
all rows. -/
def percentile (r : Request) (rows : List Record) (name : String) : Outcome Value :=
  match r.interval with
  | some i => Bucket.reduce rows i r.archetype r.target r.rank
  | none =>
    match present r.groupBy with
    | some column => Group.reduce rows column r.archetype r.target r.rank name
    | none =>
      (Percentile.ofValues (Reduction.targetValues rows r.target) r.rank).map (single name)

/-- The answer of an extraction: the rows, or their columns. -/
def extraction (r : Request) (rows : List Record) : Outcome Value :=
  .ok (if r.byColumn then byColumn rows else rowValues rows)

/-- The answer of a request from its rows. -/
def ofRows (r : Request) (rows : List Record) : Outcome Value :=
  match r.archetype with
  | .extraction => extraction r rows
  | archetype =>
    match archetype.resultName? with
    | some name => percentile r rows name
    | none => aggregate r rows

end Shape
end EventQuery
