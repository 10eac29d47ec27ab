import EventQuery.Reduction.Basic

/-!
# EventQuery.Reduction.Group

Rows split by the value of a column. Rows whose values are equal form a group; groups come in the
order of their first row, under the value that it has, and keep the order of their rows.
-/

namespace EventQuery

/-- The rows that share a value. -/
structure Group where
  key : Value
  rows : List Record

/-- Rows that are split so far: the values that they have, and the rows by the number of theirs. -/
structure Grouping where
  keys : Register
  rows : List (List Record)

namespace Grouping

def empty : Grouping := ⟨.empty, []⟩

/-- Adds a row to those of a value, or to new ones if the value is new. -/
def add (g : Grouping) (key : Value) (row : Record) : Grouping :=
  let number := g.keys.number key
  let rows := if number = g.keys.values.length then g.rows ++ [[]] else g.rows
  ⟨g.keys.enter key, rows.modify number (· ++ [row])⟩

def groups (g : Grouping) : List Group := g.keys.values.zipWith Group.mk g.rows

end Grouping

namespace Group

/-- Splits rows by a column; a row without it counts as having null. -/
def partition (rows : List Record) (column : String) : List Group :=
  (rows.foldl (fun g row => g.add (Record.value row column) row) Grouping.empty).groups

/-- The row that a group reduces to: its value and the reduced one, which stands alone when both
have one name. -/
def reduceAll (column : String) (a : Archetype) (target : Option String) (rank : Option Binary64)
    (name : String) : List Group → Outcome (List Value)
  | [] => .ok []
  | g :: rest =>
    match Reduction.reduce g.rows a target rank with
    | .error e => .error e
    | .ok result =>
      (reduceAll column a target rank name rest).map fun values =>
        .object (Assoc.set name result [(column, g.key)]) :: values

/-- Splits rows by a column, which the first row must have, and reduces each group. -/
def reduce (rows : List Record) (column : String) (a : Archetype) (target : Option String)
    (rank : Option Binary64) (name : String) : Outcome Value :=
  match rows with
  | [] => .ok (.array [])
  | first :: _ =>
    if Record.has first column then
      (reduceAll column a target rank name (partition rows column)).map .array
    else complain (.noColumn column)

end Group
end EventQuery
