import EventQuery.Archetype
import EventQuery.Reduction.Percentile
import EventQuery.Reduction.Register
import EventQuery.Value.Arithmetic

/-!
# EventQuery.Reduction.Basic

The reduction of a group of rows to one value. As in the store, null values do not take part,
except that `count` counts rows.
-/

namespace EventQuery
namespace Reduction

/-- The values of a property that are not null; without a property there are none. -/
def presentValues (rows : List Record) (target : Option String) : List Value :=
  match target with
  | none => []
  | some name => (rows.map fun r => Record.value r name).filter (!·.isNull)

def targetValues (rows : List Record) (target : Option String) : List Value :=
  rows.map fun r => (target.map (Record.value r)).getD .null

/-- The values that equal none before them, in order. -/
def distinct (values : List Value) : List Value := (values.foldl Register.enter .empty).values

/-- The first value that a comparison prefers over all others. -/
def bestFrom (op : Operator) (best : Value) : List Value → Except Mismatch Value
  | [] => .ok best
  | v :: rest =>
    match op.holds v best with
    | .error m => .error m
    | .ok better => bestFrom op (if better then v else best) rest

/-- The least or the greatest value, the first of equals; null without any. -/
def best (op : Operator) : List Value → Except Mismatch Value
  | [] => .ok .null
  | v :: rest => bestFrom op v rest

/-- A failed reduction as a refusal or a fault. -/
def ofBest (a : Archetype) (target : String) (op : Operator) (values : List Value) :
    Outcome Value :=
  match best op values with
  | .ok v => .ok v
  | .error .undefinedDecimal => faulty .undefinedDecimal
  | .error m => complain (.reduction a.name target (m.message op))

def ofSum (a : Archetype) (target : String) (result : Except SumFailure Value) : Outcome Value :=
  match result with
  | .ok v => .ok v
  | .error .beyondDouble => faulty .beyondDouble
  | .error .undefinedDecimal => faulty .undefinedDecimal
  | .error e => complain (.reduction a.name target e.message)

/-- Reduces rows by the aggregate of an archetype. -/
def reduce (rows : List Record) (a : Archetype) (target : Option String) (rank : Option Binary64) :
    Outcome Value :=
  let shown := target.getD "None"
  let values := presentValues rows target
  match a with
  | .count => .ok (.int rows.length)
  | .median => Percentile.ofValues (targetValues rows target) (some Archetype.medianRank)
  | .percentile => Percentile.ofValues (targetValues rows target) rank
  | .minimum => ofBest a shown .lt values
  | .maximum => ofBest a shown .gt values
  | .sum => ofSum a shown (Value.sum values)
  | .average => ofSum a shown (Value.mean values)
  | .countUnique => .ok (.int (distinct values).length)
  | .selectUnique => .ok (.array (distinct values))
  | .extraction => complain (.noReduction a.name)

end Reduction
end EventQuery
