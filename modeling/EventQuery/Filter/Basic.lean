import EventQuery.Json.Reader
import EventQuery.Name
import EventQuery.Value.Order

/-!
# EventQuery.Filter.Basic

Filters: a property, a comparison and a value. They arrive as a JSON array of objects; what is not
such an array means no filters, and an element that is no filter is refused.
-/

namespace EventQuery

structure Filter where
  property : String
  operator : Operator
  value : Value

namespace Filter

/-- Reads one element of the array. -/
def ofValue (v : Value) : Outcome Filter :=
  match v with
  | .object fields =>
    match Name.property "filter property" (Record.value fields "property_name") with
    | .error e => .error e
    | .ok property =>
      let operator := Record.value fields "operator"
      match operator.text?.bind Operator.ofName? with
      | some op => .ok ⟨property, op, Record.value fields "property_value"⟩
      | none =>
        complain (.filterOperator operator.displayed
          (", ".intercalate (Operator.all.map Operator.name)))
  | _ => complain .filterShape

/-- Reads the elements in order; the first that is no filter decides. -/
def ofValues : List Value → Outcome (List Filter)
  | [] => .ok []
  | v :: rest =>
    match ofValue v with
    | .error e => .error e
    | .ok f =>
      match ofValues rest with
      | .error e => .error e
      | .ok fs => .ok (f :: fs)

/-- Reads filters from a decoded parameter, or from its JSON text. -/
def parse (raw : Value) : Outcome (List Filter) :=
  match raw with
  | .text s =>
    match Json.read? s with
    | some (.array items) => ofValues items
    | _ => .ok []
  | .array items => ofValues items
  | _ => .ok []

end Filter
end EventQuery
